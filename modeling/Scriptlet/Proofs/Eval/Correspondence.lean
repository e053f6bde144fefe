/-
Two stores that correspond.  A correspondence says which scopes and which
functions of one store stand for which of another one.  If it fits the few ways
in which a run reads and changes a store, then whatever is run in corresponding
stores ends alike, and the stores correspond again: every construct is followed
once here, for all correspondences.  An invariant of single runs is a
correspondence of a store with itself.
-/
import Scriptlet.Eval.Basic
import Scriptlet.Proofs.Value.Alike

namespace Scriptlet

/-- Which stores correspond, and in two of them which scopes and which serial
numbers of functions stand for each other. -/
structure Correspondence where
  stores : Store → Store → Prop
  scopes : Store → Store → ScopeId → ScopeId → Prop
  serials : Store → Store → Nat → Nat → Prop

namespace Correspondence

variable {R : Correspondence} {s s' t t' : Store} {id id' : ScopeId}

/-- Two functions with the same text, made in corresponding scopes. -/
structure Functions (R : Correspondence) (s s' : Store) (c c' : Closure) :
    Prop where
  parameters : c.parameters = c'.parameters
  body : c.body = c'.body
  serial : R.serials s s' c.serial c'.serial
  scope : R.scopes s s' c.scope c'.scope

theorem Functions.inspect {c c' : Closure} (h : R.Functions s s' c c') :
    c.inspect = c'.inspect := by
  rw [Closure.inspect, Closure.inspect, h.parameters, h.body]

/-- The same value up to functions that stand for each other. -/
abbrev values (R : Correspondence) (s s' : Store) : Value → Value → Prop :=
  Value.Alike (R.Functions s s')

abbrev outcomes (R : Correspondence) (s s' : Store) :
    Option Value → Option Value → Prop :=
  Option.Rel (R.values s s')

/-- What stood for each other in two stores still does in two later ones. -/
structure Persists (R : Correspondence) (s s' t t' : Store) : Prop where
  scopes {id id' : ScopeId} (h : R.scopes s s' id id') : R.scopes t t' id id'
  serials {n n' : Nat} (h : R.serials s s' n n') : R.serials t t' n n'

theorem Persists.refl (s s' : Store) : R.Persists s s' s s' :=
  ⟨fun h => h, fun h => h⟩

theorem Persists.trans {u u' : Store} (h : R.Persists s s' t t')
    (h' : R.Persists t t' u u') : R.Persists s s' u u' :=
  ⟨fun hscopes => h'.scopes (h.scopes hscopes), fun hserials =>
    h'.serials (h.serials hserials)⟩

theorem Persists.values {v v' : Value} (h : R.Persists s s' t t')
    (hvalue : R.values s s' v v') : R.values t t' v v' := by
  refine hvalue.mono fun c c' hc => ?_
  exact ⟨hc.parameters, hc.body, h.serials hc.serial, h.scopes hc.scope⟩

/-- Two runs from corresponding stores end alike: with results that are related
in the stores they end in, or with the same fault. -/
inductive Ends {α α' : Type} (R : Correspondence) (s s' : Store)
    (good : Store → Store → α → α' → Prop) :
    EStateM.Result Fault Store α → EStateM.Result Fault Store α' → Prop
  | ok {a : α} {a' : α'} {t t' : Store} (hstores : R.stores t t')
      (hpersists : R.Persists s s' t t') (h : good t t' a a') :
      Ends R s s' good (.ok a t) (.ok a' t')
  | error (fault : Fault) {t t' : Store} (hstores : R.stores t t')
      (hpersists : R.Persists s s' t t') :
      Ends R s s' good (.error fault t) (.error fault t')

namespace Ends

variable {α α' β β' : Type} {good : Store → Store → α → α' → Prop}
  {better : Store → Store → β → β' → Prop}

theorem pure {a : α} {a' : α'} (hstores : R.stores s s') (h : good s s' a a') :
    R.Ends s s' good ((pure a : EvalM α) s) ((pure a' : EvalM α') s') :=
  .ok hstores (.refl s s') h

theorem throw (hstores : R.stores s s') (fault : Fault) :
    R.Ends s s' good ((throw fault : EvalM α) s)
      ((throw fault : EvalM α') s') :=
  .error fault hstores (.refl s s')

theorem since {result : EStateM.Result Fault Store α}
    {result' : EStateM.Result Fault Store α'}
    (h : R.Ends t t' good result result') (hpersists : R.Persists s s' t t') :
    R.Ends s s' good result result' := by
  cases h with
  | ok hstores hpersists' h => exact .ok hstores (hpersists.trans hpersists') h
  | error fault hstores hpersists' =>
      exact .error fault hstores (hpersists.trans hpersists')

theorem bind {run : EvalM α} {run' : EvalM α'} {next : α → EvalM β}
    {next' : α' → EvalM β'} (h : R.Ends s s' good (run s) (run' s'))
    (hnext : ∀ t t' a a', R.stores t t' → R.Persists s s' t t' →
      good t t' a a' →
      R.Ends t t' better (next a t) (next' a' t')) :
    R.Ends s s' better ((run >>= next) s) ((run' >>= next') s') := by
  change R.Ends s s' better (EStateM.bind run next s)
    (EStateM.bind run' next' s')
  rw [EStateM.bind, EStateM.bind]
  generalize run s = result at h ⊢
  generalize run' s' = result' at h ⊢
  cases h with
  | ok hstores hpersists ha =>
      exact (hnext _ _ _ _ hstores hpersists ha).since hpersists
  | error fault hstores hpersists => exact .error fault hstores hpersists

theorem map {run : EvalM α} {run' : EvalM α'} {f : α → β} {f' : α' → β'}
    (h : R.Ends s s' good (run s) (run' s'))
    (hf : ∀ t t' a a', good t t' a a' → better t t' (f a) (f' a')) :
    R.Ends s s' better ((f <$> run) s) ((f' <$> run') s') := by
  rw [map_eq_pure_bind, map_eq_pure_bind]
  refine h.bind fun t t' a a' hstores _ ha => ?_
  exact .pure hstores (hf t t' a a' ha)

theorem ofExcept {Rel : α → α' → Prop} {result : Except Fault α}
    {result' : Except Fault α'} (hstores : R.stores s s')
    (h : EndsAlike Rel result result')
    (hgood : ∀ a a', Rel a a' → good s s' a a') :
    R.Ends s s' good (EvalM.ofExcept result s) (EvalM.ofExcept result' s') := by
  cases h with
  | ok h => exact .pure hstores (hgood _ _ h)
  | error fault => exact .throw hstores fault

theorem forM {α α' : Type} {P : Store → Store → α → α' → Prop} {items : List α}
    {items' : List α'} {f : α → EvalM PUnit} {f' : α' → EvalM PUnit}
    (hstores : R.stores s s')
    (hmono : ∀ {t t' u u' a a'}, R.Persists t t' u u' → P t t' a a' →
      P u u' a a') (hitems : List.Forall₂ (P s s') items items')
    (hf : ∀ t t' a a', R.stores t t' → R.Persists s s' t t' → P t t' a a' →
      R.Ends t t' (fun _ _ _ _ => True) (f a t) (f' a' t')) :
    R.Ends s s' (fun _ _ _ _ => True) (items.forM f s) (items'.forM f' s') := by
  induction items generalizing items' s s' with
  | nil =>
      cases hitems
      exact .pure hstores trivial
  | cons item items ih =>
      cases hitems with
      | cons hitem hitems =>
          refine (hf s s' _ _ hstores (.refl s s') hitem).bind ?_
          intro t t' _ _ hstores hpersists _
          refine ih hstores (hitems.imp fun _ _ => hmono hpersists) ?_
          intro u u' a a' hstores hpersists'
          exact hf u u' a a' hstores (hpersists.trans hpersists')

theorem proceed {run run' : EvalM Value} {next next' : Value → EvalM Value}
    (h : R.Ends s s' R.values (run s) (run' s'))
    (hnext : ∀ t t' v v', R.stores t t' → R.Persists s s' t t' →
      R.values t t' v v' →
      R.Ends t t' R.values (next v t) (next' v' t')) :
    R.Ends s s' R.values (run.proceed next s) (run'.proceed next' s') := by
  refine h.bind fun t t' v v' hstores hpersists hvalue => ?_
  have hrest := hnext t t' v v' hstores hpersists hvalue
  cases hvalue with
  | returning hvalue => exact .pure hstores (.returning hvalue)
  | _ => exact hrest

end Ends

/-- A correspondence fits the single steps that read or change a store. -/
structure Lawful (R : Correspondence) : Prop where
  serials {s s' : Store} {m m' n n' : Nat} (hm : R.serials s s' m m')
    (hn : R.serials s s' n n') : m = n ↔ m' = n'
  lookup {s s' : Store} {id id' : ScopeId} (hstores : R.stores s s')
    (hscope : R.scopes s s' id id') (name : String) :
    R.outcomes s s' (s.lookup id name) (s'.lookup id' name)
  makeFunction {s s' : Store} {id id' : ScopeId} (hstores : R.stores s s')
    (hscope : R.scopes s s' id id') (parameters : List String) (body : Block) :
    R.Ends s s' R.values
      ((modifyGet (·.makeFunction parameters body id) : EvalM Value) s)
      ((modifyGet (·.makeFunction parameters body id') : EvalM Value) s')
  addScope {s s' : Store} {id id' : ScopeId} (hstores : R.stores s s')
    (hscope : R.scopes s s' id id') :
    R.Ends s s' R.scopes ((modifyGet (·.addScope (some id)) : EvalM ScopeId) s)
      ((modifyGet (·.addScope (some id')) : EvalM ScopeId) s')
  define {s s' : Store} {id id' : ScopeId} {v v' : Value}
    (hstores : R.stores s s') (hscope : R.scopes s s' id id') (name : String)
    (hvalue : R.values s s' v v') :
    R.Ends s s' (fun _ _ _ _ => True)
      ((modify (·.define id name v) : EvalM PUnit) s)
      ((modify (·.define id' name v') : EvalM PUnit) s')
  print {s s' : Store} (hstores : R.stores s s') (line : String) :
    R.Ends s s' (fun _ _ _ _ => True) ((modify (·.print line) : EvalM PUnit) s)
      ((modify (·.print line) : EvalM PUnit) s')

/-- Two evaluators run every expression alike in corresponding stores and
scopes. -/
def Follows (R : Correspondence) (eval eval' : Evaluator) : Prop :=
  ∀ ⦃s s' : Store⦄ ⦃id id' : ScopeId⦄ (e : Expr), R.stores s s' →
    R.scopes s s' id id' →
    R.Ends s s' R.values (eval id e s) (eval' id' e s')

namespace Lawful

theorem serialsAlike (h : R.Lawful) (s s' : Store) :
    Value.Alike.SerialsAlike (R.Functions s s') := by
  intro c c' d d' hc hd
  exact h.serials hc.serial hd.serial

theorem identifier (h : R.Lawful) (hstores : R.stores s s')
    (hscope : R.scopes s s' id id') (name : String) :
    R.Ends s s' R.values (Eval.identifier id name s)
      (Eval.identifier id' name s') := by
  have hget :
      R.Ends s s' (fun t t' a a' => t = a ∧ t' = a' ∧ R.scopes t t' id id')
        ((get : EvalM Store) s) ((get : EvalM Store) s') :=
    .ok hstores (.refl s s') ⟨rfl, rfl, hscope⟩
  refine hget.bind ?_
  rintro s s' _ _ hstores - ⟨rfl, rfl, hscope⟩
  have hlookup := h.lookup hstores hscope name
  generalize s.lookup id name = found at hlookup ⊢
  generalize s'.lookup id' name = found' at hlookup ⊢
  cases hlookup with
  | some hvalue => exact .pure hstores hvalue
  | none =>
      cases Builtin.ofName? name with
      | some builtin => exact .pure hstores (.builtin builtin)
      | none => exact .throw hstores _

theorem printAll (h : R.Lawful) (hstores : R.stores s s')
    {arguments arguments' : List Value}
    (harguments : List.Forall₂ (R.values s s') arguments arguments') :
    R.Ends s s' (fun _ _ _ _ => True) (Builtin.printAll arguments s)
      (Builtin.printAll arguments' s') := by
  refine Ends.forM (P := R.values) hstores Persists.values harguments ?_
  intro t t' v v' hstores _ hvalue
  rw [hvalue.inspect_eq fun _ _ hc => hc.inspect]
  exact h.print hstores _

theorem builtin (h : R.Lawful) (hstores : R.stores s s') (function : Builtin)
    {arguments arguments' : List Value}
    (harguments : List.Forall₂ (R.values s s') arguments arguments') :
    R.Ends s s' R.values (function.call arguments s)
      (function.call arguments' s') := by
  have hcount : R.Ends s s' R.values
      ((throw (.argumentCount arguments.length function.arity) : EvalM Value) s)
      ((throw (.argumentCount arguments'.length function.arity) : EvalM Value)
        s') := by
    rw [harguments.length_eq]
    exact .throw hstores _
  have hresult : ∀ {result result' : Except Fault Value},
      EndsAlike (R.values s s') result result' →
      R.Ends s s' R.values (EvalM.ofExcept result s)
        (EvalM.ofExcept result' s') :=
    fun hends => .ofExcept hstores hends fun _ _ hvalue => hvalue
  cases function with
  | puts =>
      refine (h.printAll hstores harguments).bind ?_
      intro t t' _ _ hstores _ _
      exact .pure hstores .null
  | push =>
      cases harguments with
      | nil => exact hcount
      | cons hfirst hrest =>
          cases hrest with
          | nil => exact hcount
          | cons hsecond hrest =>
              refine hresult
                ((EndsAlike.elements .push hfirst).bind fun _ _ helements => ?_)
              exact .ok
                (Value.Alike.array_iff.2
                  (List.rel_append helements (.cons hsecond hrest)))
  | len =>
      cases harguments with
      | nil => exact hcount
      | cons hfirst hrest =>
          cases hrest with
          | nil => exact hresult (EndsAlike.lenOf hfirst)
          | cons => exact hcount
  | first =>
      cases harguments with
      | nil => exact hcount
      | cons hfirst hrest =>
          cases hrest with
          | nil => exact hresult (EndsAlike.first hfirst)
          | cons => exact hcount
  | last =>
      cases harguments with
      | nil => exact hcount
      | cons hfirst hrest =>
          cases hrest with
          | nil => exact hresult (EndsAlike.last hfirst)
          | cons => exact hcount
  | rest =>
      cases harguments with
      | nil => exact hcount
      | cons hfirst hrest =>
          cases hrest with
          | nil => exact hresult (EndsAlike.restOf hfirst)
          | cons => exact hcount

/-- The parameters of a call, each with its argument. -/
theorem forall₂_zip {fn : Closure → Closure → Prop} (names : List String)
    {vs vs' : List Value} (h : List.Forall₂ (Value.Alike fn) vs vs') :
    List.Forall₂ (Value.Alike.Entry fn) (names.zip vs) (names.zip vs') := by
  induction h generalizing names with
  | nil => simp
  | cons hvalue _ ih =>
      cases names with
      | nil => exact .nil
      | cons name names => exact .cons ⟨rfl, hvalue⟩ (ih names)

variable {eval eval' : Evaluator}

mutual

theorem statement {s s' : Store} {id id' : ScopeId} (h : R.Lawful)
    (heval : R.Follows eval eval') (hstores : R.stores s s')
    (hscope : R.scopes s s' id id') (st : Statement) :
    R.Ends s s' R.outcomes (Eval.statement eval id st s)
      (Eval.statement eval' id' st s') := by
  match st with
  | .binding name value =>
      rw [Eval.statement, Eval.statement]
      refine (heval value hstores hscope).bind
        fun t t' v v' hstores hpersists hvalue => ?_
      have hdefine : R.Ends t t' R.outcomes
          ((do modify (·.define id name v); return none : EvalM (Option Value))
            t)
          ((do modify (·.define id' name v'); return none :
            EvalM (Option Value)) t') := by
        refine (h.define hstores (hpersists.scopes hscope) name hvalue).bind ?_
        intro u u' _ _ hstores _ _
        exact .pure hstores .none
      cases hvalue with
      | returning hvalue => exact .pure hstores (.some (.returning hvalue))
      | _ => exact hdefine
  | .returning value =>
      rw [Eval.statement, Eval.statement]
      refine Ends.map (Ends.proceed (heval value hstores hscope) ?_)
        fun _ _ _ _ hvalue => .some hvalue
      intro t t' v v' hstores _ hvalue
      exact .pure hstores (.returning hvalue)
  | .expression value =>
      rw [Eval.statement, Eval.statement]
      exact (heval value hstores hscope).map fun _ _ _ _ hvalue => .some hvalue
  | .block body =>
      rw [Eval.statement, Eval.statement]
      exact h.statements heval hstores hscope .none body

theorem statements {s s' : Store} {id id' : ScopeId} (h : R.Lawful)
    (heval : R.Follows eval eval') (hstores : R.stores s s')
    (hscope : R.scopes s s' id id') {last last' : Option Value}
    (hlast : R.outcomes s s' last last') (sts : List Statement) :
    R.Ends s s' R.outcomes (Eval.statements eval id last sts s)
      (Eval.statements eval' id' last' sts s') := by
  match sts with
  | [] =>
      rw [Eval.statements, Eval.statements]
      exact .pure hstores hlast
  | st :: sts =>
      rw [Eval.statements, Eval.statements]
      refine (h.statement heval hstores hscope st).bind ?_
      intro t t' outcome outcome' hstores hpersists houtcome
      have hrest :=
        h.statements heval hstores (hpersists.scopes hscope) houtcome sts
      cases houtcome with
      | none => exact hrest
      | some hvalue =>
          cases hvalue with
          | returning hvalue => exact .pure hstores (.some (.returning hvalue))
          | _ => exact hrest

end

theorem block (h : R.Lawful) (heval : R.Follows eval eval')
    (hstores : R.stores s s') (hscope : R.scopes s s' id id') (body : Block) :
    R.Ends s s' R.outcomes (Eval.block eval id body s)
      (Eval.block eval' id' body s') :=
  h.statements heval hstores hscope .none body

theorem expressions (heval : R.Follows eval eval') (hstores : R.stores s s')
    (hscope : R.scopes s s' id id') (es : List Expr)
    {next next' : List Value → EvalM Value}
    (hnext : ∀ t t' vs vs', R.stores t t' → R.Persists s s' t t' →
      List.Forall₂ (R.values t t') vs vs' →
      R.Ends t t' R.values (next vs t) (next' vs' t')) :
    R.Ends s s' R.values (Eval.values eval id es next s)
      (Eval.values eval' id' es next' s') := by
  induction es generalizing s s' next next' with
  | nil => exact hnext s s' [] [] hstores (.refl s s') .nil
  | cons e es ih =>
      refine (heval e hstores hscope).proceed
        fun t t' v v' hstores hpersists hvalue => ?_
      refine ih hstores (hpersists.scopes hscope) ?_
      intro u u' vs vs' hstores hpersists' hvalues
      exact hnext u u' (v :: vs) (v' :: vs') hstores
        (hpersists.trans hpersists') (.cons (hpersists'.values hvalue) hvalues)

theorem entries (heval : R.Follows eval eval') (hstores : R.stores s s')
    (hscope : R.scopes s s' id id') (pairs : List (Expr × Expr))
    {table table' : Table HashKey Value}
    (htable : List.Forall₂ (Value.Alike.Entry (R.Functions s s'))
      table table') :
    R.Ends s s' R.values (Eval.entries eval id table pairs s)
      (Eval.entries eval' id' table' pairs s') := by
  induction pairs generalizing s s' table table' with
  | nil => exact .pure hstores (Value.Alike.hash_iff.2 htable)
  | cons pair pairs ih =>
      refine (heval pair.1 hstores hscope).proceed
        fun t t' v v' hstores hpersists hkey => ?_
      have hends : R.Ends t t' (fun _ _ => Eq) (EvalM.ofExcept v.toKey t)
          (EvalM.ofExcept v'.toKey t') :=
        .ofExcept hstores (EndsAlike.toKey hkey) fun _ _ heq => heq
      refine hends.bind ?_
      rintro u u' key _ hstores hpersists' rfl
      have hbetween := hpersists.trans hpersists'
      refine (heval pair.2 hstores (hbetween.scopes hscope)).proceed ?_
      intro w w' x x' hstores hpersists'' hvalue
      have hthrough := hbetween.trans hpersists''
      refine ih hstores (hthrough.scopes hscope) ?_
      exact Value.Alike.insert
        (htable.imp fun _ _ hentry => ⟨hentry.1, hthrough.values hentry.2⟩)
        key hvalue

theorem enterCall (h : R.Lawful) (hstores : R.stores s s')
    (hscope : R.scopes s s' id id') (parameters : List String)
    {arguments arguments' : List Value}
    (harguments : List.Forall₂ (R.values s s') arguments arguments') :
    R.Ends s s' R.scopes (Eval.enterCall id parameters arguments s)
      (Eval.enterCall id' parameters arguments' s') := by
  refine (h.addScope hstores hscope).bind
    fun t t' fresh fresh' hstores hpersists hfresh => ?_
  have hbindings :=
    forall₂_zip parameters (harguments.imp fun _ _ => hpersists.values)
  refine Ends.bind
    (Ends.forM (P := fun u u' => Value.Alike.Entry (R.Functions u u')) hstores
      ?_ hbindings ?_) ?_
  · intro u u' w w' a a' hpersists hentry
    exact ⟨hentry.1, hpersists.values hentry.2⟩
  · rintro u u' ⟨name, v⟩ ⟨_, v'⟩ hstores hpersists ⟨rfl, hvalue⟩
    exact h.define hstores (hpersists.scopes hfresh) _ hvalue
  · intro u u' _ _ hstores hpersists _
    exact .pure hstores (hpersists.scopes hfresh)

theorem ofOutcome {outcome outcome' : Option Value}
    (h : R.outcomes s s' outcome outcome') :
    R.values s s' (.ofOutcome outcome) (.ofOutcome outcome') := by
  cases h with
  | none => exact .null
  | some hvalue =>
      have hsame := hvalue
      cases hvalue with
      | returning hvalue => exact hvalue
      | _ => exact hsame

theorem callClosure (h : R.Lawful) (heval : R.Follows eval eval')
    (hstores : R.stores s s') {c c' : Closure} (hc : R.Functions s s' c c')
    {arguments arguments' : List Value}
    (harguments : List.Forall₂ (R.values s s') arguments arguments') :
    R.Ends s s' R.values (Eval.callClosure eval c arguments s)
      (Eval.callClosure eval' c' arguments' s') := by
  rw [Eval.callClosure, Eval.callClosure, ← hc.parameters, ← hc.body,
    ← harguments.length_eq]
  split
  · exact .throw hstores _
  · refine (h.enterCall hstores hc.scope c.parameters harguments).bind ?_
    intro t t' fresh fresh' hstores hpersists hfresh
    refine (h.block heval hstores hfresh c.body).bind ?_
    intro u u' outcome outcome' hstores _ houtcome
    exact .pure hstores (ofOutcome houtcome)

theorem apply (h : R.Lawful) (heval : R.Follows eval eval')
    (hstores : R.stores s s') {callee callee' : Value}
    (hcallee : R.values s s' callee callee') {arguments arguments' : List Value}
    (harguments : List.Forall₂ (R.values s s') arguments arguments') :
    R.Ends s s' R.values (Eval.apply eval callee arguments s)
      (Eval.apply eval' callee' arguments' s') := by
  cases hcallee with
  | function hc => exact h.callClosure heval hstores hc harguments
  | builtin builtin => exact h.builtin hstores builtin harguments
  | _ => exact .throw hstores _

theorem branch (h : R.Lawful) (heval : R.Follows eval eval')
    (hstores : R.stores s s') (hscope : R.scopes s s' id id')
    {condition condition' : Value}
    (hcondition : R.values s s' condition condition') (consequence : Block)
    (alternative : Option Block) :
    R.Ends s s' R.values
      (Eval.branch eval id condition consequence alternative s)
      (Eval.branch eval' id' condition' consequence alternative s') := by
  rw [Eval.branch, Eval.branch, hcondition.isTruthy_eq]
  cases if condition'.isTruthy then some consequence else alternative with
  | some body =>
      refine (h.block heval hstores hscope body).bind ?_
      intro t t' outcome outcome' hstores _ houtcome
      exact .pure hstores (Value.Alike.getD houtcome)
  | none => exact .pure hstores .null

/-- An expression is run alike if the expressions inside it are. -/
theorem step (h : R.Lawful) (heval : R.Follows eval eval') :
    R.Follows (Eval.step eval) (Eval.step eval') := by
  intro s s' id id' e hstores hscope
  have hresult : ∀ {t t' : Store} {result result' : Except Fault Value},
      R.stores t t' →
      EndsAlike (R.values t t') result result' →
      R.Ends t t' R.values (EvalM.ofExcept result t)
        (EvalM.ofExcept result' t') :=
    fun hstores hends => .ofExcept hstores hends fun _ _ hvalue => hvalue
  cases e with
  | identifier name => exact h.identifier hstores hscope name
  | integer value => exact .pure hstores (.integer value)
  | boolean value => exact .pure hstores (.boolean value)
  | string value => exact .pure hstores (.string value)
  | array elements =>
      refine expressions heval hstores hscope elements
        fun t t' vs vs' hstores _ hvalues => ?_
      exact .pure hstores (Value.Alike.array_iff.2 hvalues)
  | hash pairs => exact entries heval hstores hscope pairs .nil
  | unary op operand =>
      refine (heval operand hstores hscope).proceed
        fun t t' v v' hstores _ hvalue => ?_
      exact hresult hstores (EndsAlike.unary op hvalue)
  | binary op left right =>
      refine (heval left hstores hscope).proceed
        fun t t' v v' hstores hpersists hleft => ?_
      refine (heval right hstores (hpersists.scopes hscope)).proceed ?_
      intro u u' w w' hstores hpersists' hright
      exact hresult hstores
        (EndsAlike.binary (h.serialsAlike u u') op
          (hpersists'.values hleft) hright)
  | conditional condition consequence alternative =>
      refine (heval condition hstores hscope).proceed
        fun t t' v v' hstores hpersists hvalue => ?_
      exact h.branch heval hstores (hpersists.scopes hscope) hvalue
        consequence alternative
  | function parameters body =>
      exact h.makeFunction hstores hscope parameters body
  | call callee arguments =>
      refine (heval callee hstores hscope).proceed
        fun t t' v v' hstores hpersists hcallee => ?_
      refine expressions heval hstores (hpersists.scopes hscope) arguments ?_
      intro u u' vs vs' hstores hpersists' hvalues
      exact h.apply heval hstores (hpersists'.values hcallee) hvalues
  | index collection position =>
      refine (heval collection hstores hscope).proceed
        fun t t' v v' hstores hpersists hvalue => ?_
      refine (heval position hstores (hpersists.scopes hscope)).proceed ?_
      intro u u' w w' hstores hpersists' hposition
      exact hresult hstores
        (EndsAlike.index (hpersists'.values hvalue) hposition)

theorem follows_eval (h : R.Lawful) (limit levels : Nat) :
    R.Follows (Expr.eval limit levels) (Expr.eval limit levels) := by
  induction levels with
  | zero => exact fun _ _ _ _ e hstores _ => .throw hstores _
  | succ levels ih => exact h.step ih

end Lawful

end Correspondence

end Scriptlet
