/-
The store of a running program: its scopes, the number of functions made so
far, and the text printed so far.  Scopes are only ever added, and a scope is
named by its position, so a name for a scope stays good.
-/
import Scriptlet.Value.Basic

namespace Scriptlet

/-- The names bound in one place, and the scope around it. -/
structure Scope where
  bindings : Table String Value
  parent : Option ScopeId

structure Store where
  scopes : Array Scope
  functions : Nat
  output : String

namespace Store

/-- A store in which nothing has happened. -/
def empty : Store := ⟨#[], 0, ""⟩

/-- Adds a scope without bindings and names it. -/
def addScope (store : Store) (parent : Option ScopeId) : ScopeId × Store :=
  (store.scopes.size, { store with scopes := store.scopes.push ⟨[], parent⟩ })

/-- Binds a name in a scope, in place of what was bound there before. -/
def define (store : Store) (id : ScopeId) (name : String) (value : Value) :
    Store :=
  { store with
    scopes := store.scopes.modify id fun scope =>
      { scope with bindings := scope.bindings.insert name value } }

/-- The value of a name: that of the innermost scope that binds it, from `id`
outwards.  A scope is older than the scopes inside it, so the walk ends. -/
def lookup (store : Store) (id : ScopeId) (name : String) : Option Value :=
  match store.scopes[id]? with
  | none => none
  | some scope =>
      match scope.bindings.find? name with
      | some value => some value
      | none =>
          match scope.parent with
          | some parent =>
              if parent < id then store.lookup parent name else none
          | none => none
termination_by id

/-- The names bound in a scope itself, in ascending order. -/
def names (store : Store) (id : ScopeId) : List String :=
  match store.scopes[id]? with
  | some scope => scope.bindings.keys
  | none => []

/-- Whether a scope lies inside another one. -/
def isEnclosed (store : Store) (id : ScopeId) : Bool :=
  match store.scopes[id]? with
  | some scope => scope.parent.isSome
  | none => false

/-- Makes a function that belongs to a scope. -/
def makeFunction (store : Store) (parameters : List String) (body : Block)
    (scope : ScopeId) : Value × Store :=
  (.function ⟨store.functions, parameters, body, scope⟩,
    { store with functions := store.functions + 1 })

/-- Prints a line. -/
def print (store : Store) (line : String) : Store :=
  { store with output := store.output ++ line ++ "\n" }

/-- The text printed so far, and the store without it. -/
def takeOutput (store : Store) : String × Store :=
  (store.output, { store with output := "" })

end Store

/-- A run: it reads and changes the store, and ends with a result or a fault.
What it did before a fault stays done. -/
abbrev EvalM := EStateM Fault Store

namespace EvalM

variable {α β : Type}

/-- A result or a fault that needs no store. -/
def ofExcept : Except Fault α → EvalM α
  | .ok a => pure a
  | .error fault => throw fault

theorem bind_of_ok {run : EvalM α} {next : α → EvalM β}
    {store after : Store} {a : α} (h : run store = .ok a after) :
    (run >>= next) store = next a after := by
  change EStateM.bind run next store = next a after
  rw [EStateM.bind, h]

theorem bind_of_error {run : EvalM α} {next : α → EvalM β} {store after : Store}
    {fault : Fault} (h : run store = .error fault after) :
    (run >>= next) store = .error fault after := by
  change EStateM.bind run next store = .error fault after
  rw [EStateM.bind, h]

end EvalM

end Scriptlet
