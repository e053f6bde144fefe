/-
Scripts: source text that is run once, from the start and on its own.
-/
import Scriptlet.Session

namespace Scriptlet

/-- Why a script has no value. -/
inductive ScriptError where
  /-- It could not be read as a whole, so nothing of it was run. -/
  | malformed (diagnostics : List Diagnostic)
  /-- It was run and failed. -/
  | failed (fault : Fault)
deriving DecidableEq, Repr

def ScriptError.message : ScriptError → String
  | malformed diagnostics =>
      "\n".intercalate (diagnostics.map Diagnostic.render)
  | failed fault => fault.message

/-- The value of a run that ended with `value`; a fault is an error. -/
def Value.toResult : Value → Except ScriptError Value
  | .fault cause => .error (.failed cause)
  | value => .ok value

/-- What a script came to, and what it printed. -/
structure Script.Result where
  value : Except ScriptError Value
  output : String

/-- Runs source text in a session of its own. -/
def Script.run (limit : Nat) (source : String) : Script.Result :=
  let parsed := Parsed.ofSource source
  if parsed.diagnostics.isEmpty then
    let (value, session) := (Session.start limit).program parsed.program
    ⟨value.toResult, session.store.output⟩
  else
    ⟨.error (.malformed parsed.diagnostics), ""⟩

end Scriptlet
