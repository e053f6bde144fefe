/-
Sessions: a store, the scope that is worked in, and the scopes to go back to.
Everything that is run in a session sees what was run before.
-/
import Scriptlet.Eval.Basic
import Scriptlet.Parser.Grammar

namespace Scriptlet

structure Session where
  /-- The levels that expressions may nest while they run. -/
  limit : Nat
  store : Store
  scope : ScopeId
  outer : List ScopeId

namespace Session

/-- A session in a single scope without bindings. -/
def start (limit : Nat) : Session :=
  let (scope, store) := Store.empty.addScope none
  ⟨limit, store, scope, []⟩

/-- The number of scopes entered and not left. -/
def depth (session : Session) : Nat := session.outer.length + 1

/-- Enters a new scope inside the one worked in. -/
def enter (session : Session) : Session :=
  let (scope, store) := session.store.addScope (some session.scope)
  { session with store, scope, outer := session.scope :: session.outer }

/-- Goes back to the scope worked in before; the first one is never left. -/
def leave (session : Session) : Session :=
  match session.outer with
  | [] => session
  | scope :: outer => { session with scope, outer }

def define (session : Session) (name : String) (value : Value) : Session :=
  { session with store := session.store.define session.scope name value }

def lookup (session : Session) (name : String) : Option Value :=
  session.store.lookup session.scope name

def names (session : Session) : List String := session.store.names session.scope

/-- Makes a function that sees no binding at all. -/
def makeFunction (session : Session) (parameters : List String) (body : Block) :
    Value × Session :=
  let (scope, store) := session.store.addScope none
  let (value, store) := store.makeFunction parameters body scope
  (value, { session with store })

/-- The text printed since it was last taken. -/
def takeOutput (session : Session) : String × Session :=
  let (output, store) := session.store.takeOutput
  (output, { session with store })

/-- Runs something in the session. -/
def perform {α : Type} (session : Session) (run : EvalM α) :
    Except Fault α × Session :=
  match run session.store with
  | .ok a store => (.ok a, { session with store })
  | .error fault store => (.error fault, { session with store })

def statement (session : Session) (statement : Statement) :
    Except Fault (Option Value) × Session :=
  session.perform
    (Eval.statement (Eval.evaluator session.limit) session.scope statement)

def block (session : Session) (body : Block) :
    Except Fault (Option Value) × Session :=
  session.perform (Eval.block (Eval.evaluator session.limit) session.scope body)

def expression (session : Session) (expr : Expr) :
    Except Fault Value × Session :=
  session.perform (Eval.evaluator session.limit session.scope expr)

def apply (session : Session) (callee : Value) (arguments : List Value) :
    Except Fault Value × Session :=
  session.perform (Eval.apply (Eval.evaluator session.limit) callee arguments)

def builtin (session : Session) (builtin : Builtin) (arguments : List Value) :
    Except Fault Value × Session :=
  session.perform (builtin.call arguments)

/-- Runs a program, which ends with a value or a fault as a value. -/
def program (session : Session) (program : Program) : Value × Session :=
  let (value, store) :=
    Eval.program session.limit session.scope program session.store
  (value, { session with store })

end Session

end Scriptlet
