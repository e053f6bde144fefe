/-
Equality of values as programs see it.  Functions are equal when they were
made at the same time, everything else when it is alike part by part.
-/
import Scriptlet.Value.Basic

namespace Scriptlet

mutual

def Value.same : Value → Value → Bool
  | .null, .null => true
  | .integer a, .integer b => a == b
  | .boolean a, .boolean b => a == b
  | .string a, .string b => a == b
  | .array xs, .array ys => sameValues xs ys
  | .hash xs, .hash ys => sameEntries xs ys
  | .function f, .function g => f.serial == g.serial
  | .builtin f, .builtin g => f == g
  | .returning a, .returning b => a.same b
  | .fault f, .fault g => f == g
  | _, _ => false

def sameValues : List Value → List Value → Bool
  | [], [] => true
  | x :: xs, y :: ys => x.same y && sameValues xs ys
  | _, _ => false

def sameEntries : List (HashKey × Value) → List (HashKey × Value) → Bool
  | [], [] => true
  | (k, v) :: xs, (k', v') :: ys => k == k' && v.same v' && sameEntries xs ys
  | _, _ => false

end

instance : BEq Value := ⟨Value.same⟩

end Scriptlet
