/-
Values of running programs.
-/
import Scriptlet.Fault
import Scriptlet.HashKey
import Scriptlet.Table

namespace Scriptlet

/-- A scope is named by its position in the store. -/
abbrev ScopeId := Nat

/-- A function together with the scope it was made in.  The serial number
tells functions apart that were made at different times. -/
structure Closure where
  serial : Nat
  parameters : List String
  body : Block
  scope : ScopeId

/-- A value.  `returning v` is the value `v` on its way out of a function, and
`fault f` is what a failed program comes to. -/
inductive Value where
  | null
  | integer (value : Int64)
  | boolean (value : Bool)
  | string (value : String)
  | array (elements : List Value)
  | hash (entries : List (HashKey × Value))
  | function (closure : Closure)
  | builtin (builtin : Builtin)
  | returning (value : Value)
  | fault (fault : Fault)
deriving Inhabited

namespace Value

def typeName : Value → TypeName
  | null => .null
  | integer _ => .integer
  | boolean _ => .boolean
  | string _ => .string
  | array _ => .array
  | hash _ => .hash
  | function _ => .function
  | builtin _ => .builtin
  | returning _ => .returning
  | fault _ => .fault

/-- Every value but `null` and `false` counts as true. -/
def isTruthy : Value → Bool
  | null | boolean false => false
  | _ => true

/-- The value that a hash key was made from. -/
def ofKey : HashKey → Value
  | .integer value => integer value
  | .boolean value => boolean value
  | .string value => string value

/-- The hash key that a value makes, if it makes one. -/
def toKey : Value → Except Fault HashKey
  | integer value => .ok (.integer value)
  | boolean value => .ok (.boolean value)
  | string value => .ok (.string value)
  | other => .error (.unhashable other.typeName)

theorem toKey_ofKey (key : HashKey) : (ofKey key).toKey = .ok key := by
  cases key <;> rfl

end Value

end Scriptlet
