/-
Values that differ at most in their functions.  A relation between functions
carries over to values: arrays and hashes part by part, and everything without
functions only to itself.  Whatever looks at values without calling them treats
both alike.
-/
import Mathlib.Data.List.Forall2
import Scriptlet.Eval.Builtins
import Scriptlet.Eval.Operators

namespace Scriptlet

/-- The same value up to its functions, which are related by `fn`. -/
inductive Value.Alike (fn : Closure → Closure → Prop) : Value → Value → Prop
  | null : Alike fn .null .null
  | integer (n : Int64) : Alike fn (.integer n) (.integer n)
  | boolean (b : Bool) : Alike fn (.boolean b) (.boolean b)
  | string (s : String) : Alike fn (.string s) (.string s)
  | array {xs ys : List Value} (hlength : xs.length = ys.length)
      (h : ∀ x y, (x, y) ∈ xs.zip ys → Alike fn x y) :
      Alike fn (.array xs) (.array ys)
  | hash {xs ys : List (HashKey × Value)} (hlength : xs.length = ys.length)
      (hkeys : ∀ x y, (x, y) ∈ xs.zip ys → x.1 = y.1)
      (h : ∀ x y, (x, y) ∈ xs.zip ys → Alike fn x.2 y.2) :
      Alike fn (.hash xs) (.hash ys)
  | function {c d : Closure} (h : fn c d) : Alike fn (.function c) (.function d)
  | builtin (b : Builtin) : Alike fn (.builtin b) (.builtin b)
  | returning {v w : Value} (h : Alike fn v w) :
      Alike fn (.returning v) (.returning w)
  | fault (f : Fault) : Alike fn (.fault f) (.fault f)

namespace Value.Alike

variable {fn fn' : Closure → Closure → Prop} {v v' w w' : Value}
  {xs ys : List Value}

/-- Two entries with the same key and values that are alike. -/
def Entry {κ : Type} (fn : Closure → Closure → Prop) (x y : κ × Value) : Prop :=
  x.1 = y.1 ∧ Alike fn x.2 y.2

theorem array_iff :
    Alike fn (.array xs) (.array ys) ↔ List.Forall₂ (Alike fn) xs ys := by
  rw [List.forall₂_iff_zip]
  constructor
  · rintro ⟨⟩
    next hlength h => exact ⟨hlength, h _ _⟩
  · intro ⟨hlength, h⟩
    exact .array hlength fun _ _ => h

theorem hash_iff {xs ys : List (HashKey × Value)} :
    Alike fn (.hash xs) (.hash ys) ↔ List.Forall₂ (Entry fn) xs ys := by
  rw [List.forall₂_iff_zip]
  constructor
  · rintro ⟨⟩
    next hlength hkeys h =>
      exact ⟨hlength, fun hmem => ⟨hkeys _ _ hmem, h _ _ hmem⟩⟩
  · intro ⟨hlength, h⟩
    exact .hash hlength (fun _ _ hmem => (h hmem).1) fun _ _ hmem => (h hmem).2

theorem mono (hfn : ∀ c d, fn c d → fn' c d) (h : Alike fn v w) :
    Alike fn' v w := by
  induction h with
  | null => exact .null
  | integer n => exact .integer n
  | boolean b => exact .boolean b
  | string s => exact .string s
  | array hlength _ ih => exact .array hlength ih
  | hash hlength hkeys _ ih => exact .hash hlength hkeys ih
  | function h => exact .function (hfn _ _ h)
  | builtin b => exact .builtin b
  | returning _ ih => exact .returning ih
  | fault f => exact .fault f

theorem typeName_eq (h : Alike fn v w) : v.typeName = w.typeName := by
  cases h <;> rfl

theorem isTruthy_eq (h : Alike fn v w) : v.isTruthy = w.isTruthy := by
  cases h <;> rfl

theorem toKey_eq (h : Alike fn v w) : v.toKey = w.toKey := by
  cases h <;> rfl

theorem inspectValues_eq
    (h : List.Forall₂ (fun x y => x.inspect = y.inspect) xs ys) :
    inspectValues xs = inspectValues ys := by
  induction h with
  | nil => rfl
  | cons hfirst _ ih => rw [inspectValues, inspectValues, hfirst, ih]

theorem inspectEntries_eq {xs ys : List (HashKey × Value)}
    (h :
      List.Forall₂ (fun x y => x.1 = y.1 ∧ x.2.inspect = y.2.inspect) xs ys) :
    inspectEntries xs = inspectEntries ys := by
  induction h with
  | nil => rfl
  | cons hfirst _ ih =>
      rw [inspectEntries, inspectEntries, hfirst.1, hfirst.2, ih]

/-- Values that are alike are printed alike, if functions are. -/
theorem inspect_eq (hfn : ∀ c d, fn c d → c.inspect = d.inspect)
    (h : Alike fn v w) : v.inspect = w.inspect := by
  induction h with
  | array hlength _ ih =>
      have hinspect :=
        inspectValues_eq (List.forall₂_iff_zip.2 ⟨hlength, ih _ _⟩)
      rw [Value.inspect, Value.inspect, hinspect]
  | hash hlength hkeys _ ih =>
      have hinspect := inspectEntries_eq
        (List.forall₂_iff_zip.2
          ⟨hlength, fun hmem => ⟨hkeys _ _ hmem, ih _ _ hmem⟩⟩)
      rw [Value.inspect, Value.inspect, hinspect]
  | function h =>
      rw [Value.inspect, Value.inspect]
      exact hfn _ _ h
  | returning _ ih =>
      rw [Value.inspect, Value.inspect]
      exact ih
  | _ => rfl

/-- Functions are told apart by their serial numbers on both sides. -/
def SerialsAlike (fn : Closure → Closure → Prop) : Prop :=
  ∀ c c' d d', fn c c' → fn d d' → (c.serial = d.serial ↔ c'.serial = d'.serial)

/-- Beside values that are alike, two values compare alike. -/
def ComparesAs (fn : Closure → Closure → Prop) (v v' : Value) : Prop :=
  ∀ w w', Alike fn w w' → v.same w = v'.same w'

theorem sameValues_eq {xs' ys' : List Value}
    (hxs : List.Forall₂ (ComparesAs fn) xs xs')
    (hys : List.Forall₂ (Alike fn) ys ys') :
    sameValues xs ys = sameValues xs' ys' := by
  induction hxs generalizing ys ys' with
  | nil => cases hys <;> rfl
  | cons hx _ ih =>
      cases hys with
      | nil => rfl
      | cons hy hys => rw [sameValues, sameValues, hx _ _ hy, ih hys]

theorem sameEntries_eq {xs xs' ys ys' : List (HashKey × Value)}
    (hxs :
      List.Forall₂ (fun x x' => x.1 = x'.1 ∧ ComparesAs fn x.2 x'.2) xs xs')
    (hys : List.Forall₂ (Entry fn) ys ys') :
    sameEntries xs ys = sameEntries xs' ys' := by
  induction hxs generalizing ys ys' with
  | nil => cases hys <;> rfl
  | cons hx _ ih =>
      cases hys with
      | nil => rfl
      | cons hy hys =>
          rw [sameEntries, sameEntries, hx.1, hy.1, hx.2 _ _ hy.2, ih hys]

/-- Values that are alike compare alike, if functions do. -/
theorem same_eq (hfn : SerialsAlike fn) (h : Alike fn v v') :
    ComparesAs fn v v' := by
  induction h with
  | array hlength _ ih =>
      intro w w' hw
      cases hw with
      | array hlength' h' =>
          exact sameValues_eq (List.forall₂_iff_zip.2 ⟨hlength, ih _ _⟩)
            (List.forall₂_iff_zip.2 ⟨hlength', h' _ _⟩)
      | _ => rfl
  | hash hlength hkeys _ ih =>
      intro w w' hw
      cases hw with
      | hash hlength' hkeys' h' =>
          exact sameEntries_eq
            (List.forall₂_iff_zip.2
              ⟨hlength, fun hmem => ⟨hkeys _ _ hmem, ih _ _ hmem⟩⟩)
            (hash_iff.1 (.hash hlength' hkeys' h'))
      | _ => rfl
  | function h =>
      intro w w' hw
      cases hw with
      | function h' => simp only [Value.same, beq_eq_beq, hfn _ _ _ _ h h']
      | _ => rfl
  | returning _ ih =>
      intro w w' hw
      cases hw with
      | returning h' => exact ih _ _ h'
      | _ => rfl
  | _ =>
      intro w w' hw
      cases hw <;> rfl

theorem getD {v? w? : Option Value} (h : Option.Rel (Alike fn) v? w?) :
    Alike fn (v?.getD .null) (w?.getD .null) := by
  cases h with
  | some h => exact h
  | none => exact .null

theorem getElem? (h : List.Forall₂ (Alike fn) xs ys) (position : Nat) :
    Option.Rel (Alike fn) xs[position]? ys[position]? := by
  induction h generalizing position with
  | nil => exact .none
  | cons hfirst _ ih =>
      cases position with
      | zero => exact .some hfirst
      | succ position => exact ih position

theorem find? {κ : Type} [Ord κ] {xs ys : Table κ Value}
    (h : List.Forall₂ (Entry fn) xs ys) (key : κ) :
    Option.Rel (Alike fn) (xs.find? key) (ys.find? key) := by
  induction h with
  | nil => exact .none
  | @cons x y _ _ hfirst _ ih =>
      obtain ⟨k, v⟩ := x
      obtain ⟨_, w⟩ := y
      obtain ⟨rfl, hvalue⟩ := hfirst
      rw [Table.find?, Table.find?]
      split
      · exact .some hvalue
      · exact ih

theorem insert {κ : Type} [Ord κ] {xs ys : Table κ Value}
    (h : List.Forall₂ (Entry fn) xs ys) (key : κ)
    (hvalue : Alike fn v w) :
    List.Forall₂ (Entry fn) (xs.insert key v) (ys.insert key w) := by
  induction h with
  | nil => exact .cons ⟨rfl, hvalue⟩ .nil
  | @cons x y _ _ hfirst hrest ih =>
      obtain ⟨k, v⟩ := x
      obtain ⟨_, w⟩ := y
      obtain ⟨rfl, hfirst⟩ := hfirst
      cases hcompare : compare key k with
      | lt =>
          simp only [Table.insert, hcompare]
          exact .cons ⟨rfl, hvalue⟩ (.cons ⟨rfl, hfirst⟩ hrest)
      | eq =>
          simp only [Table.insert, hcompare]
          exact .cons ⟨rfl, hvalue⟩ hrest
      | gt =>
          simp only [Table.insert, hcompare]
          exact .cons ⟨rfl, hfirst⟩ ih

end Value.Alike

/-- Both end with the same fault, or with results that are related. -/
inductive EndsAlike {α β : Type} (R : α → β → Prop) :
    Except Fault α → Except Fault β → Prop
  | ok {a : α} {b : β} (h : R a b) : EndsAlike R (.ok a) (.ok b)
  | error (fault : Fault) : EndsAlike R (.error fault) (.error fault)

namespace EndsAlike

open Value.Alike (SerialsAlike)

variable {fn : Closure → Closure → Prop} {v v' w w' : Value}

theorem bind {α α' β β' : Type} {R : α → α' → Prop} {S : β → β' → Prop}
    {result : Except Fault α} {result' : Except Fault α'}
    {next : α → Except Fault β} {next' : α' → Except Fault β'}
    (h : EndsAlike R result result')
    (hnext : ∀ a a', R a a' → EndsAlike S (next a) (next' a')) :
    EndsAlike S (result >>= next) (result' >>= next') := by
  cases h with
  | ok h => exact hnext _ _ h
  | error fault => exact .error fault

theorem inRange (operation : Overflow) (n : Int) :
    EndsAlike (Value.Alike fn) (inRange operation n) (inRange operation n) := by
  unfold Scriptlet.inRange
  split
  · exact .ok (.integer _)
  · exact .error _

theorem length (count : Nat) :
    EndsAlike (Value.Alike fn) (.integer <$> Builtin.ofLength count)
      (.integer <$> Builtin.ofLength count) := by
  unfold Builtin.ofLength
  split
  · exact .ok (.integer _)
  · exact .error _

theorem unary (op : UnaryOp) (h : v.Alike fn v') :
    EndsAlike (Value.Alike fn) (op.apply v) (op.apply v') := by
  cases op with
  | not =>
      rw [UnaryOp.apply, UnaryOp.apply, h.isTruthy_eq]
      exact .ok (.boolean _)
  | negate =>
      cases h with
      | integer n => exact inRange _ _
      | _ => exact .error _

theorem onIntegers (op : BinaryOp) (m n : Int64) :
    EndsAlike (Value.Alike fn) (op.onIntegers m n) (op.onIntegers m n) := by
  cases op with
  | add | sub | mul => exact inRange _ _
  | div =>
      rw [BinaryOp.onIntegers]
      split
      · exact .error _
      · exact inRange _ _
  | mod =>
      rw [BinaryOp.onIntegers]
      split
      · exact .error _
      · refine bind (R := Value.Alike fn) (inRange _ _) ?_
        intro _ _ _
        exact inRange _ _
  | less | greater | equal | notEqual => exact .ok (.boolean _)

theorem onStrings (op : BinaryOp) (s t : String) :
    EndsAlike (Value.Alike fn) (op.onStrings s t) (op.onStrings s t) := by
  cases op with
  | add => exact .ok (.string _)
  | equal | notEqual => exact .ok (.boolean _)
  | _ => exact .error _

theorem onValues (hserial : SerialsAlike fn) (op : BinaryOp) (h : v.Alike fn v')
    (h' : w.Alike fn w') :
    EndsAlike (Value.Alike fn) (op.onValues v w) (op.onValues v' w') := by
  have hsame : (v == w) = (v' == w') := h.same_eq hserial w w' h'
  cases op with
  | equal =>
      rw [BinaryOp.onValues, BinaryOp.onValues, hsame]
      exact .ok (.boolean _)
  | notEqual =>
      rw [BinaryOp.onValues, BinaryOp.onValues, bne, bne, hsame]
      exact .ok (.boolean _)
  | _ =>
      simp only [BinaryOp.onValues, h.typeName_eq, h'.typeName_eq]
      exact .error _

theorem binary (hserial : SerialsAlike fn) (op : BinaryOp) (h : v.Alike fn v')
    (h' : w.Alike fn w') :
    EndsAlike (Value.Alike fn) (op.apply v w) (op.apply v' w') := by
  have hothers : EndsAlike (Value.Alike fn)
      (if v.typeName ≠ w.typeName then
        .error (.typeMismatch v.typeName op w.typeName) else op.onValues v w)
      (if v'.typeName ≠ w'.typeName then
        .error (.typeMismatch v'.typeName op w'.typeName) else
          op.onValues v' w') := by
    rw [h.typeName_eq, h'.typeName_eq]
    split
    · exact .error _
    · exact onValues hserial op h h'
  cases h with
  | integer m =>
      cases h' with
      | integer n => exact onIntegers op m n
      | _ => exact hothers
  | string s =>
      cases h' with
      | string t => exact onStrings op s t
      | _ => exact hothers
  | _ => exact hothers

theorem toKey (h : v.Alike fn v') : EndsAlike Eq v.toKey v'.toKey := by
  rw [h.toKey_eq]
  cases v'.toKey with
  | ok key => exact .ok rfl
  | error fault => exact .error fault

theorem index (h : v.Alike fn v') (h' : w.Alike fn w') :
    EndsAlike (Value.Alike fn) (v.index w) (v'.index w') := by
  cases h with
  | @array xs ys hlength h =>
      cases h' with
      | integer i =>
          have hxs : List.Forall₂ (Value.Alike fn) xs ys :=
            List.forall₂_iff_zip.2 ⟨hlength, h _ _⟩
          rw [Value.index, Value.index]
          refine .ok (Value.Alike.getD ?_)
          cases Integer.toIndex? i with
          | none => exact .none
          | some position => exact Value.Alike.getElem? hxs position
      | _ => exact .error _
  | @hash xs ys hlength hkeys h =>
      have hxs := Value.Alike.hash_iff.1 (.hash hlength hkeys h)
      simp only [Value.index]
      refine (toKey h').bind ?_
      rintro key _ rfl
      exact .ok (Value.Alike.getD (Value.Alike.find? hxs key))
  | _ => exact .error _

theorem lenOf (h : v.Alike fn v') :
    EndsAlike (Value.Alike fn) (Builtin.lenOf v) (Builtin.lenOf v') := by
  cases h with
  | string s =>
      rw [Builtin.lenOf]
      exact length _
  | array hlength _ =>
      rw [Builtin.lenOf, Builtin.lenOf, hlength]
      exact length _
  | _ => exact .error _

theorem elements (function : Builtin) (h : v.Alike fn v') :
    EndsAlike (List.Forall₂ (Value.Alike fn)) (function.elements v)
      (function.elements v') := by
  cases h with
  | array hlength h => exact .ok (List.forall₂_iff_zip.2 ⟨hlength, h _ _⟩)
  | _ => exact .error _

theorem first (h : v.Alike fn v') :
    EndsAlike (Value.Alike fn)
      (do return (← Builtin.first.elements v).head?.getD .null)
      (do return (← Builtin.first.elements v').head?.getD .null) := by
  refine (elements .first h).bind fun xs ys hxs => .ok (Value.Alike.getD ?_)
  rw [List.head?_eq_getElem?, List.head?_eq_getElem?]
  exact Value.Alike.getElem? hxs 0

theorem last (h : v.Alike fn v') :
    EndsAlike (Value.Alike fn)
      (do return (← Builtin.last.elements v).getLast?.getD .null)
      (do return (← Builtin.last.elements v').getLast?.getD .null) := by
  refine (elements .last h).bind fun xs ys hxs => .ok (Value.Alike.getD ?_)
  rw [List.getLast?_eq_getElem?, List.getLast?_eq_getElem?, hxs.length_eq]
  exact Value.Alike.getElem? hxs _

theorem restOf (h : v.Alike fn v') :
    EndsAlike (Value.Alike fn) (Builtin.restOf v) (Builtin.restOf v') := by
  refine (elements .rest h).bind ?_
  intro xs ys hxs
  cases hxs with
  | nil => exact .ok .null
  | cons _ hrest => exact .ok (Value.Alike.array_iff.2 hrest)

end EndsAlike

end Scriptlet
