/-
Running programs.  An expression is run by `step`, which leaves the running of
the expressions inside it to the evaluator it is given.  Expressions may nest
to a limit while they run: `Expr.eval` gives `step` an evaluator with one level
less, and with no levels left it is a stack overflow.

A value on its way out of a function, `Value.returning`, ends every expression
and every block that it turns up in.
-/
import Scriptlet.Eval.Builtins
import Scriptlet.Eval.Operators

namespace Scriptlet

/-- Runs an expression in a scope. -/
abbrev Evaluator := ScopeId → Expr → EvalM Value

/-- Goes on with the value of a run, unless it is on its way out. -/
def EvalM.proceed (run : EvalM Value) (next : Value → EvalM Value) :
    EvalM Value := do
  match ← run with
  | .returning value => return .returning value
  | value => next value

/-- The value a function or a program ends with, from that of its statements. -/
def Value.ofOutcome : Option Value → Value
  | some (.returning value) => value
  | some value => value
  | none => .null

namespace Eval

mutual

/-- Runs a statement; a binding has no value. -/
def statement (eval : Evaluator) (scope : ScopeId) :
    Statement → EvalM (Option Value)
  | .binding name value => do
      match ← eval scope value with
      | .returning value => return some (.returning value)
      | value =>
          modify (·.define scope name value)
          return none
  | .returning value =>
      some <$> (eval scope value).proceed fun value => return .returning value
  | .expression value => some <$> eval scope value
  | .block body => statements eval scope none body

/-- Runs statements in turn, up to one whose value is on its way out.  The value
is that of the last one run, or `last` if there is none. -/
def statements (eval : Evaluator) (scope : ScopeId) (last : Option Value) :
    List Statement → EvalM (Option Value)
  | [] => return last
  | first :: rest => do
      match ← statement eval scope first with
      | some (.returning value) => return some (.returning value)
      | value => statements eval scope value rest

end

/-- Runs a block. -/
def block (eval : Evaluator) (scope : ScopeId) (body : Block) :
    EvalM (Option Value) :=
  statements eval scope none body

/-- Runs expressions from left to right and goes on with their values. -/
def values (eval : Evaluator) (scope : ScopeId) :
    List Expr → (List Value → EvalM Value) → EvalM Value
  | [], next => next []
  | first :: rest, next =>
      (eval scope first).proceed fun value =>
        values eval scope rest fun others => next (value :: others)

/-- Runs the pairs of a hash in turn and adds them to `table`.  A key that
cannot be one is found out before its value is run. -/
def entries (eval : Evaluator) (scope : ScopeId) (table : Table HashKey Value) :
    List (Expr × Expr) → EvalM Value
  | [] => return .hash table
  | (key, value) :: rest =>
      (eval scope key).proceed fun key => do
        let key ← EvalM.ofExcept key.toKey
        (eval scope value).proceed fun value =>
          entries eval scope (table.insert key value) rest

/-- The value of a name, bound in a scope or else built in. -/
def identifier (scope : ScopeId) (name : String) : EvalM Value := do
  match (← get).lookup scope name with
  | some value => return value
  | none =>
      match Builtin.ofName? name with
      | some builtin => return .builtin builtin
      | none => throw (.unbound name)

/-- Adds a scope inside `parent` in which the parameters are bound in turn. -/
def enterCall (parent : ScopeId) (parameters : List String)
    (arguments : List Value) : EvalM ScopeId := do
  let scope ← modifyGet (·.addScope (some parent))
  (parameters.zip arguments).forM fun (name, value) =>
    modify (·.define scope name value)
  return scope

/-- Calls a function that a program made. -/
def callClosure (eval : Evaluator) (closure : Closure)
    (arguments : List Value) : EvalM Value := do
  if arguments.length ≠ closure.parameters.length then
    throw (.argumentCount arguments.length (.exactly closure.parameters.length))
  let scope ← enterCall closure.scope closure.parameters arguments
  return .ofOutcome (← block eval scope closure.body)

/-- Calls a value. -/
def apply (eval : Evaluator) (callee : Value) (arguments : List Value) :
    EvalM Value :=
  match callee with
  | .function closure => callClosure eval closure arguments
  | .builtin builtin => builtin.call arguments
  | other => throw (.notCallable other.typeName)

/-- Runs the branch that a condition chooses. -/
def branch (eval : Evaluator) (scope : ScopeId) (condition : Value)
    (consequence : Block) (alternative : Option Block) : EvalM Value := do
  match if condition.isTruthy then some consequence else alternative with
  | some body => return (← block eval scope body).getD .null
  | none => return .null

/-- Runs an expression, the expressions inside it by `eval`. -/
def step (eval : Evaluator) (scope : ScopeId) : Expr → EvalM Value
  | .identifier name => identifier scope name
  | .integer value => return .integer value
  | .boolean value => return .boolean value
  | .string value => return .string value
  | .array elements =>
      values eval scope elements fun elements => return .array elements
  | .hash pairs => entries eval scope [] pairs
  | .unary op operand =>
      (eval scope operand).proceed fun operand =>
        EvalM.ofExcept (op.apply operand)
  | .binary op left right =>
      (eval scope left).proceed fun left =>
        (eval scope right).proceed fun right =>
          EvalM.ofExcept (op.apply left right)
  | .conditional condition consequence alternative =>
      (eval scope condition).proceed fun condition =>
        branch eval scope condition consequence alternative
  | .function parameters body =>
      modifyGet (·.makeFunction parameters body scope)
  | .call callee arguments =>
      (eval scope callee).proceed fun callee =>
        values eval scope arguments fun arguments => apply eval callee arguments
  | .index collection position =>
      (eval scope collection).proceed fun collection =>
        (eval scope position).proceed fun position =>
          EvalM.ofExcept (collection.index position)

end Eval

/-- Runs an expression with `levels` of the `limit` levels left. -/
def Expr.eval (limit : Nat) : (levels : Nat) → Evaluator
  | 0 => fun _ _ => throw (.stackOverflow limit)
  | levels + 1 => Eval.step (Expr.eval limit levels)

/-- The levels that a program may use where nothing else is said. -/
def defaultLimit : Nat := 512

namespace Eval

/-- Runs expressions with all of `limit` levels left. -/
def evaluator (limit : Nat) : Evaluator := Expr.eval limit limit

/-- Runs a program in a scope.  Its value is that of its last statement or of a
`return`, or the fault that ended it. -/
def program (limit : Nat) (scope : ScopeId) (program : Program)
    (store : Store) : Value × Store :=
  match block (evaluator limit) scope program store with
  | .ok outcome store => (.ofOutcome outcome, store)
  | .error fault store => (.fault fault, store)

end Eval

end Scriptlet
