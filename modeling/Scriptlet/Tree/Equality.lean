/-
Equality of program trees is decidable.  Trees are compared by the functions
`same`, one for each kind of node and child list, and `same` is shown to hold
exactly of equal trees.
-/
import Scriptlet.Tree.Basic

namespace Scriptlet

mutual

def Expr.same : Expr → Expr → Bool
  | .identifier a, .identifier b => a == b
  | .integer a, .integer b => a == b
  | .boolean a, .boolean b => a == b
  | .string a, .string b => a == b
  | .array xs, .array ys => sameExprs xs ys
  | .hash xs, .hash ys => samePairs xs ys
  | .unary op x, .unary op' y => op == op' && x.same y
  | .binary op l r, .binary op' l' r' => op == op' && l.same l' && r.same r'
  | .conditional c t none, .conditional c' t' none =>
      c.same c' && sameStatements t t'
  | .conditional c t (some e), .conditional c' t' (some e') =>
      c.same c' && sameStatements t t' && sameStatements e e'
  | .function ps b, .function ps' b' => ps == ps' && sameStatements b b'
  | .call f xs, .call g ys => f.same g && sameExprs xs ys
  | .index c i, .index c' i' => c.same c' && i.same i'
  | _, _ => false

def Statement.same : Statement → Statement → Bool
  | .binding n x, .binding m y => n == m && x.same y
  | .returning x, .returning y => x.same y
  | .expression x, .expression y => x.same y
  | .block xs, .block ys => sameStatements xs ys
  | _, _ => false

def sameExprs : List Expr → List Expr → Bool
  | [], [] => true
  | x :: xs, y :: ys => x.same y && sameExprs xs ys
  | _, _ => false

def samePairs : List (Expr × Expr) → List (Expr × Expr) → Bool
  | [], [] => true
  | (k, v) :: xs, (k', v') :: ys => k.same k' && v.same v' && samePairs xs ys
  | _, _ => false

def sameStatements : List Statement → List Statement → Bool
  | [], [] => true
  | x :: xs, y :: ys => x.same y && sameStatements xs ys
  | _, _ => false

end

mutual

theorem Expr.same_iff (x : Expr) : ∀ y : Expr, x.same y ↔ x = y := by
  intro y
  match x with
  | .identifier _ | .integer _ | .boolean _ | .string _ =>
      cases y <;> simp [Expr.same]
  | .array xs => cases y <;> simp [Expr.same, sameExprs_iff xs]
  | .hash xs => cases y <;> simp [Expr.same, samePairs_iff xs]
  | .unary op x => cases y <;> simp [Expr.same, x.same_iff]
  | .binary op l r =>
      cases y <;> simp [Expr.same, l.same_iff, r.same_iff, and_assoc]
  | .conditional c t none =>
      cases y with
      | conditional c' t' e' =>
          cases e' <;> simp [Expr.same, c.same_iff, sameStatements_iff t]
      | _ => simp [Expr.same]
  | .conditional c t (some e) =>
      cases y with
      | conditional c' t' e' =>
          cases e' <;>
            simp [Expr.same, c.same_iff, sameStatements_iff t,
              sameStatements_iff e, and_assoc]
      | _ => simp [Expr.same]
  | .function ps b => cases y <;> simp [Expr.same, sameStatements_iff b]
  | .call f xs => cases y <;> simp [Expr.same, f.same_iff, sameExprs_iff xs]
  | .index c i => cases y <;> simp [Expr.same, c.same_iff, i.same_iff]

theorem Statement.same_iff (x : Statement) :
    ∀ y : Statement, x.same y ↔ x = y := by
  intro y
  match x with
  | .binding n x => cases y <;> simp [Statement.same, x.same_iff]
  | .returning x | .expression x =>
      cases y <;> simp [Statement.same, x.same_iff]
  | .block xs => cases y <;> simp [Statement.same, sameStatements_iff xs]

theorem sameExprs_iff (xs : List Expr) :
    ∀ ys : List Expr, sameExprs xs ys ↔ xs = ys := by
  intro ys
  match xs with
  | [] => cases ys <;> simp [sameExprs]
  | x :: xs => cases ys <;> simp [sameExprs, x.same_iff, sameExprs_iff xs]

theorem samePairs_iff (xs : List (Expr × Expr)) :
    ∀ ys : List (Expr × Expr), samePairs xs ys ↔ xs = ys := by
  intro ys
  match xs with
  | [] => cases ys <;> simp [samePairs]
  | (k, v) :: xs =>
      cases ys with
      | nil => simp [samePairs]
      | cons y ys =>
          obtain ⟨k', v'⟩ := y
          simp [samePairs, k.same_iff, v.same_iff, samePairs_iff xs]

theorem sameStatements_iff (xs : List Statement) :
    ∀ ys : List Statement, sameStatements xs ys ↔ xs = ys := by
  intro ys
  match xs with
  | [] => cases ys <;> simp [sameStatements]
  | x :: xs =>
      cases ys <;> simp [sameStatements, x.same_iff, sameStatements_iff xs]

end

instance : DecidableEq Expr :=
  fun x y => decidable_of_iff (x.same y) (x.same_iff y)

instance : DecidableEq Statement :=
  fun x y => decidable_of_iff (x.same y) (x.same_iff y)

end Scriptlet
