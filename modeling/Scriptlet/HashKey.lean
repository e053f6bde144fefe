/-
The keys of hashes: integers, booleans and strings, in this order.
-/
import Scriptlet.Tree.Printer

namespace Scriptlet

/-- A key of a hash. -/
inductive HashKey where
  | integer (value : Int64)
  | boolean (value : Bool)
  | string (value : String)
deriving DecidableEq, Repr

namespace HashKey

/-- Integers come first, ascending, then `false` and `true`, then strings by
code points. -/
protected def compare : HashKey → HashKey → Ordering
  | integer a, integer b => Ord.compare a b
  | integer _, _ => .lt
  | _, integer _ => .gt
  | boolean a, boolean b => Ord.compare a b
  | boolean _, _ => .lt
  | _, boolean _ => .gt
  | string a, string b => Ord.compare a b

instance : Ord HashKey := ⟨HashKey.compare⟩

theorem compare_integer (a b : Int64) :
    compare (integer a) (integer b) = compare a b := rfl

theorem compare_boolean (a b : Bool) :
    compare (boolean a) (boolean b) = compare a b := rfl

theorem compare_string (a b : String) :
    compare (string a) (string b) = compare a b := rfl

instance : Std.LawfulEqOrd HashKey where
  compare_self {a} := by
    cases a with
    | integer a => rw [compare_integer, Std.ReflOrd.compare_self]
    | boolean a => rw [compare_boolean, Std.ReflOrd.compare_self]
    | string a => rw [compare_string, Std.ReflOrd.compare_self]
  eq_of_compare {a b} h := by
    cases a <;> cases b
    case integer.integer a b =>
      rw [compare_integer] at h
      rw [Std.LawfulEqOrd.eq_of_compare h]
    case boolean.boolean a b =>
      rw [compare_boolean] at h
      rw [Std.LawfulEqOrd.eq_of_compare h]
    case string.string a b =>
      rw [compare_string] at h
      rw [Std.LawfulEqOrd.eq_of_compare h]
    all_goals cases h

instance : Std.TransOrd HashKey where
  eq_swap {a b} := by
    cases a <;> cases b
    case integer.integer a b =>
      rw [compare_integer, compare_integer]
      exact Std.OrientedOrd.eq_swap
    case boolean.boolean a b =>
      rw [compare_boolean, compare_boolean]
      exact Std.OrientedOrd.eq_swap
    case string.string a b =>
      rw [compare_string, compare_string]
      exact Std.OrientedOrd.eq_swap
    all_goals rfl
  isLE_trans {a b c} hab hbc := by
    cases a <;> cases b <;> cases c
    case integer.integer.integer a b c =>
      rw [compare_integer] at *
      exact Std.TransOrd.isLE_trans hab hbc
    case boolean.boolean.boolean a b c =>
      rw [compare_boolean] at *
      exact Std.TransOrd.isLE_trans hab hbc
    case string.string.string a b c =>
      rw [compare_string] at *
      exact Std.TransOrd.isLE_trans hab hbc
    all_goals first
      | rfl
      | exact absurd hab Bool.false_ne_true
      | exact absurd hbc Bool.false_ne_true

/-- A key as it is shown: a string stands without quotes. -/
def text : HashKey → String
  | integer value => Integer.toText value
  | boolean value => boolText value
  | string value => value

/-- Keys in ascending order, each as often as it was given. -/
def sort (keys : List HashKey) : List HashKey :=
  keys.mergeSort fun a b => (compare a b).isLE

/-- The number of different keys in a list. -/
def countDistinct (keys : List HashKey) : Nat := keys.eraseDups.length

end HashKey

end Scriptlet
