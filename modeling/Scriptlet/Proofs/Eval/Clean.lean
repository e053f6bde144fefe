/-
Values that hold nothing on its way out of a function and no fault, however
deep.  A store that holds only such values goes on holding only such values:
nothing that operators, built-in functions and names give is of another kind.
-/
import Scriptlet.Proofs.Eval.Invariant

namespace Scriptlet

/-- Neither on its way out nor a fault, and nothing in it is. -/
inductive Value.Clean : Value → Prop
  | null : Clean .null
  | integer (value : Int64) : Clean (.integer value)
  | boolean (value : Bool) : Clean (.boolean value)
  | string (value : String) : Clean (.string value)
  | array {elements : List Value}
      (helements : ∀ element ∈ elements, Clean element) :
      Clean (.array elements)
  | hash {entries : List (HashKey × Value)}
      (hentries : ∀ entry ∈ entries, Clean entry.2) : Clean (.hash entries)
  | function (closure : Closure) : Clean (.function closure)
  | builtin (builtin : Builtin) : Clean (.builtin builtin)

namespace Value

theorem Clean.of_isPlain {value : Value} (h : value.isPlain) : value.Clean := by
  cases value with
  | null => exact .null
  | integer value => exact .integer value
  | boolean value => exact .boolean value
  | string value => exact .string value
  | builtin builtin => exact .builtin builtin
  | _ => cases h

theorem clean_array_iff {elements : List Value} :
    (array elements).Clean ↔ ∀ element ∈ elements, element.Clean := by
  refine ⟨fun h => ?_, .array⟩
  cases h with
  | array helements => exact helements

theorem clean_hash_iff {entries : Table HashKey Value} :
    (hash entries).Clean ↔ ∀ entry ∈ entries, entry.2.Clean := by
  refine ⟨fun h => ?_, .hash⟩
  cases h with
  | hash hentries => exact hentries

end Value

/-- Every value that is bound in a scope is clean. -/
def Store.Clean (store : Store) : Prop :=
  ∀ (id : ScopeId) (scope : Scope), store.scopes[id]? = some scope →
    ∀ binding ∈ scope.bindings, binding.2.Clean

/-- Cleanliness does not depend on the functions made so far. -/
def Invariant.clean : Invariant where
  Stage := Unit
  later _ _ := True
  value _ := Value.Clean
  count _ _ := True
  later_refl _ := trivial
  later_trans _ _ := trivial
  value_later _ := id
  value_plain _ _ := Value.Clean.of_isPlain
  value_array := Value.clean_array_iff
  value_hash := Value.clean_hash_iff
  value_returning h := by cases h
  value_function _ _ _ _ := ⟨(), trivial, trivial, .function _⟩

namespace Store

variable {store : Store}

theorem clean_empty : Store.empty.Clean := by
  intro id scope hscope
  simp [Store.empty] at hscope

theorem holds_clean_iff : Invariant.clean.Holds () store ↔ store.Clean := by
  constructor
  · exact fun h _ _ hscope _ hbinding => h.bindings hscope hbinding
  · exact fun h => ⟨trivial, fun id scope binding hscope =>
      h id scope hscope binding⟩

theorem Clean.holds (h : store.Clean) : Invariant.clean.Holds () store :=
  holds_clean_iff.2 h

theorem Clean.define (h : store.Clean) (id : ScopeId) (name : String)
    {value : Value} (hvalue : value.Clean) :
    (store.define id name value).Clean :=
  holds_clean_iff.1 (h.holds.define id name hvalue)

theorem Clean.addScope (h : store.Clean) (parent : Option ScopeId) :
    (store.addScope parent).2.Clean :=
  holds_clean_iff.1 (h.holds.addScope parent)

end Store

/-- From a clean store the run gives good results only, and leaves it clean. -/
def EvalM.Keeps {α : Type} (good : α → Prop) (run : EvalM α) : Prop :=
  ∀ store : Store, store.Clean →
    match run store with
    | .ok a after => good a ∧ after.Clean
    | .error _ after => after.Clean

namespace EvalM

variable {α : Type} {good : α → Prop}

theorem keeps_of_ends {run : EvalM α}
    (h : ∀ store, Invariant.clean.Holds () store →
      Invariant.clean.Ends () (fun _ => good) (run store)) :
        Keeps good run := by
  intro store hstore
  have hends := h store hstore.holds
  generalize run store = result at hends
  cases hends with
  | ok _ hafter hgood => exact ⟨hgood, Store.holds_clean_iff.1 hafter⟩
  | error _ _ hafter => exact Store.holds_clean_iff.1 hafter

theorem keeps_throw (fault : Fault) : Keeps good (throw fault) :=
  fun _ hstore => hstore

theorem keeps_ofExcept {result : Except Fault α}
    (h : ∀ a, result = .ok a → good a) : Keeps good (ofExcept result) :=
  keeps_of_ends fun _ hstore => .ofExcept hstore h

end EvalM

theorem Value.Clean.index {collection position value : Value}
    (hcollection : collection.Clean)
    (h : collection.index position = .ok value) : value.Clean := by
  have hvalue : Invariant.clean.value () collection := hcollection
  exact Invariant.value_of_index hvalue h

theorem Builtin.keeps_call (function : Builtin) {arguments : List Value}
    (h : ∀ argument ∈ arguments, argument.Clean) :
    EvalM.Keeps Value.Clean (function.call arguments) :=
  EvalM.keeps_of_ends fun _ hstore => Invariant.ends_call hstore function h

namespace Eval

theorem keeps_identifier (scope : ScopeId) (name : String) :
    EvalM.Keeps Value.Clean (identifier scope name) :=
  EvalM.keeps_of_ends fun _ hstore =>
    Invariant.ends_identifier hstore scope name

theorem keeps_enterCall (parent : ScopeId) (parameters : List String)
    {arguments : List Value} (h : ∀ argument ∈ arguments, argument.Clean) :
    EvalM.Keeps (fun _ => True) (enterCall parent parameters arguments) :=
  EvalM.keeps_of_ends fun _ hstore =>
    Invariant.ends_enterCall hstore parent parameters h

theorem keeps_makeFunction (parameters : List String) (body : Block)
    (scope : ScopeId) :
    EvalM.Keeps Value.Clean
      (modifyGet (·.makeFunction parameters body scope)) :=
  EvalM.keeps_of_ends fun _ hstore =>
    Invariant.ends_makeFunction hstore parameters body scope

end Eval

end Scriptlet
