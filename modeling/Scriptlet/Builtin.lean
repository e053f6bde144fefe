/-
The functions that need no definition, and how many arguments each accepts.
-/

namespace Scriptlet

/-- The argument counts that a function accepts. -/
inductive Arity where
  | exactly (count : Nat)
  | atLeast (count : Nat)
  | any
deriving DecidableEq, Repr

namespace Arity

def accepts (arity : Arity) (count : Nat) : Bool :=
  match arity with
  | exactly n => count == n
  | atLeast n => n ≤ count
  | any => true

def text : Arity → String
  | exactly n => toString n
  | atLeast n => "at least " ++ toString n
  | any => "any"

end Arity

/-- The built-in functions. -/
inductive Builtin where
  | len
  | push
  | first
  | last
  | rest
  | puts
deriving DecidableEq, Repr

namespace Builtin

def name : Builtin → String
  | len => "len"
  | push => "push"
  | first => "first"
  | last => "last"
  | rest => "rest"
  | puts => "puts"

def arity : Builtin → Arity
  | len | first | last | rest => .exactly 1
  | push => .atLeast 2
  | puts => .any

/-- Every built-in function, in the order in which they are listed. -/
def all : List Builtin := [len, push, first, last, rest, puts]

theorem mem_all (builtin : Builtin) : builtin ∈ all := by
  cases builtin <;> decide

/-- The built-in function that a name stands for when nothing else is bound
to it. -/
def ofName? (name : String) : Option Builtin :=
  all.find? fun builtin => builtin.name == name

theorem ofName?_name (builtin : Builtin) :
    ofName? builtin.name = some builtin := by
  cases builtin <;> decide

end Builtin

end Scriptlet
