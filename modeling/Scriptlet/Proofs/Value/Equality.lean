/-
Equality of values.  Two values are equal if they are alike up to their
functions, and their functions were made at the same times.  So equality is an
equivalence, whatever the values are made of, and the operators `==` and `!=`
give its answer wherever they give one.  Text is another matter: it shows the
functions themselves, so it is the same only where functions made at the same
time are.
-/
import Scriptlet.Proofs.Eval.Repeat

namespace Scriptlet

namespace Value

/-- Alike up to functions, which were made at the same times. -/
abbrev Coeval : Value → Value → Prop := Alike fun c d => c.serial = d.serial

theorem forall₂_of_sameValues {xs ys : List Value}
    (h : sameValues xs ys = true) :
    List.Forall₂ (fun x y => x.same y = true) xs ys := by
  induction xs generalizing ys with
  | nil =>
      cases ys with
      | nil => exact .nil
      | cons => cases h
  | cons x xs ih =>
      cases ys with
      | nil => cases h
      | cons y ys =>
          rw [sameValues, Bool.and_eq_true] at h
          exact .cons h.1 (ih h.2)

theorem forall₂_of_sameEntries {xs ys : List (HashKey × Value)}
    (h : sameEntries xs ys = true) :
    List.Forall₂ (fun x y => x.1 = y.1 ∧ x.2.same y.2 = true) xs ys := by
  induction xs generalizing ys with
  | nil =>
      cases ys with
      | nil => exact .nil
      | cons => cases h
  | cons x xs ih =>
      cases ys with
      | nil => cases h
      | cons y ys =>
          rw [sameEntries, Bool.and_eq_true, Bool.and_eq_true, beq_iff_eq] at h
          exact .cons h.1 (ih h.2)

theorem coeval_of_same {v w : Value} (h : v.same w = true) : v.Coeval w := by
  match v with
  | .null =>
      cases w with
      | null => exact .null
      | _ => cases h
  | .integer m =>
      cases w with
      | integer n =>
          cases eq_of_beq h
          exact .integer m
      | _ => cases h
  | .boolean a =>
      cases w with
      | boolean b =>
          cases eq_of_beq h
          exact .boolean a
      | _ => cases h
  | .string s =>
      cases w with
      | string t =>
          cases eq_of_beq h
          exact .string s
      | _ => cases h
  | .array xs =>
      cases w with
      | array ys =>
          obtain ⟨hlength, hsame⟩ :=
            List.forall₂_iff_zip.1 (forall₂_of_sameValues h)
          refine .array hlength fun x y hmem => ?_
          have hx : x ∈ xs := (List.of_mem_zip hmem).1
          exact coeval_of_same (hsame hmem)
      | _ => cases h
  | .hash xs =>
      cases w with
      | hash ys =>
          obtain ⟨hlength, hsame⟩ :=
            List.forall₂_iff_zip.1 (forall₂_of_sameEntries h)
          refine .hash hlength (fun x y hmem => (hsame hmem).1)
            fun x y hmem => ?_
          have hsize : sizeOf x.2 < sizeOf xs := by
            have := List.sizeOf_lt_of_mem (List.of_mem_zip hmem).1
            have : sizeOf x = 1 + sizeOf x.1 + sizeOf x.2 := rfl
            omega
          exact coeval_of_same (hsame hmem).2
      | _ => cases h
  | .function c =>
      cases w with
      | function d => exact .function (eq_of_beq h)
      | _ => cases h
  | .builtin b =>
      cases w with
      | builtin b' =>
          cases eq_of_beq h
          exact .builtin b
      | _ => cases h
  | .returning v =>
      cases w with
      | returning w => exact .returning (coeval_of_same (v := v) h)
      | _ => cases h
  | .fault f =>
      cases w with
      | fault g =>
          cases eq_of_beq h
          exact .fault f
      | _ => cases h

/-- What equality means. -/
theorem beq_iff_coeval {v w : Value} : (v == w) = true ↔ v.Coeval w :=
  ⟨coeval_of_same, fun h => h.same_of_serials fun _ _ _ hserial => hserial⟩

theorem serialsAlike_coeval :
    Alike.SerialsAlike fun c d => c.serial = d.serial := by
  intro c c' d d' hc hd
  rw [hc, hd]

theorem coeval_refl (v : Value) : v.Coeval v :=
  v.alike_self fun _ _ => rfl

theorem beq_refl (v : Value) : (v == v) = true :=
  beq_iff_coeval.2 v.coeval_refl

/-- Equal values compare alike with any other value. -/
theorem beq_congr {v v' : Value} (h : (v == v') = true) (w : Value) :
    (v == w) = (v' == w) :=
  (beq_iff_coeval.1 h).same_eq serialsAlike_coeval w w w.coeval_refl

theorem beq_symm {v w : Value} (h : (v == w) = true) : (w == v) = true := by
  rw [← beq_congr h v, beq_refl]

theorem beq_comm (v w : Value) : (v == w) = (w == v) :=
  Bool.eq_iff_iff.2 ⟨beq_symm, beq_symm⟩

theorem beq_trans {u v w : Value} (h : (u == v) = true) (h' : (v == w) = true) :
    (u == w) = true := by
  rw [beq_congr h w, h']

theorem Alike.imp_of_holds {fn fn' : Closure → Closure → Prop} {v w : Value}
    (h : v.Alike fn w) (hfn : ∀ c d, v.Holds c → w.Holds d → fn c d → fn' c d) :
    v.Alike fn' w := by
  induction h with
  | null => exact .null
  | integer n => exact .integer n
  | boolean b => exact .boolean b
  | string s => exact .string s
  | array hlength _ ih =>
      refine .array hlength fun x y hmem => ih x y hmem fun c d hc hd => ?_
      obtain ⟨hx, hy⟩ := List.of_mem_zip hmem
      exact hfn c d (.array hx hc) (.array hy hd)
  | hash hlength hkeys _ ih =>
      refine .hash hlength hkeys fun x y hmem => ih x y hmem fun c d hc hd => ?_
      obtain ⟨hx, hy⟩ := List.of_mem_zip hmem
      exact hfn c d (.hash hx hc) (.hash hy hd)
  | function h => exact .function (hfn _ _ (.function _) (.function _) h)
  | builtin b => exact .builtin b
  | returning _ ih =>
      exact .returning
        (ih fun c d hc hd => hfn c d (.returning hc) (.returning hd))
  | fault f => exact .fault f

/-- Equal values are printed alike, if serial numbers tell their functions
apart. -/
theorem inspect_eq_of_beq {v w : Value} (h : (v == w) = true)
    (hfunctions : ∀ c d, v.Holds c → w.Holds d → c.serial = d.serial → c = d) :
    v.inspect = w.inspect :=
  ((beq_iff_coeval.1 h).imp_of_holds hfunctions).inspect_eq fun _ _ heq =>
    congrArg _ heq

end Value

namespace BinaryOp

/-- An operator that says of two values whether they are equal, whichever way it
puts it. -/
theorem apply_of_compares {op : BinaryOp} {f : Bool → Bool}
    (hintegers : ∀ m n, op.onIntegers m n = .ok (.boolean (f (m == n))))
    (hstrings : ∀ s t, op.onStrings s t = .ok (.boolean (f (s == t))))
    (hvalues : ∀ v w, op.onValues v w = .ok (.boolean (f (v == w))))
    (v w : Value) :
    op.apply v w = if v.typeName = w.typeName then .ok (.boolean (f (v == w)))
      else .error (.typeMismatch v.typeName op w.typeName) := by
  unfold apply
  split
  · exact hintegers _ _
  · exact hstrings _ _
  · rw [hvalues, ite_not]

theorem equal_apply (v w : Value) :
    equal.apply v w = if v.typeName = w.typeName then .ok (.boolean (v == w))
      else .error (.typeMismatch v.typeName .equal w.typeName) :=
  apply_of_compares (f := id) (fun _ _ => rfl) (fun _ _ => rfl)
    (fun _ _ => rfl) v w

theorem notEqual_apply (v w : Value) :
    notEqual.apply v w = if v.typeName = w.typeName then
      .ok (.boolean !(v == w))
      else .error (.typeMismatch v.typeName .notEqual w.typeName) :=
  apply_of_compares (f := not) (fun _ _ => rfl) (fun _ _ => rfl)
    (fun _ _ => rfl) v w

end BinaryOp

end Scriptlet
