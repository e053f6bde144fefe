/-
Arithmetic on 64-bit integers, beside the exact arithmetic of all integers.  An
operation comes to its exact result wherever that is in range, and is refused
elsewhere.  There is one refusal beyond these: the remainder of the least
integer by -1 is 0, but it is refused along with the quotient, which is out of
range.
-/
import Mathlib.Data.Rat.Floor
import Scriptlet.Eval.Operators

namespace Scriptlet

namespace Integer

/-- The integers that 64 bits have room for. -/
def InRange (n : Int) : Prop := -2 ^ 63 ≤ n ∧ n ≤ 2 ^ 63 - 1

instance (n : Int) : Decidable (InRange n) :=
  inferInstanceAs (Decidable (_ ∧ _))

theorem inRange_toInt (i : Int64) : InRange i.toInt :=
  ⟨i.le_toInt, Int.le_sub_one_of_lt i.toInt_lt⟩

theorem InRange.of_le {n bound : Nat} (hbound : InRange bound) (h : n ≤ bound) :
    InRange n := by
  unfold InRange at *
  omega

theorem ofInt?_eq_some_iff {n : Int} {i : Int64} :
    ofInt? n = some i ↔ i.toInt = n := by
  constructor
  · exact toInt_of_ofInt?_eq_some
  · rintro rfl
    exact ofInt?_toInt i

theorem ofInt?_eq_none_iff_not_inRange {n : Int} :
    ofInt? n = none ↔ ¬ InRange n :=
  ofInt?_eq_none_iff

theorem exists_toInt_eq {n : Int} (h : InRange n) :
    ∃ i : Int64, i.toInt = n := by
  cases hn : ofInt? n with
  | none => exact absurd h (ofInt?_eq_none_iff_not_inRange.1 hn)
  | some i => exact ⟨i, toInt_of_ofInt?_eq_some hn⟩

theorem toInt_ne_zero {i : Int64} (h : i ≠ 0) : i.toInt ≠ 0 :=
  fun hzero => h (Int64.toInt_inj.1 hzero)

end Integer

open Integer (InRange)

section Ranged

variable {operation : Overflow} {n : Int}

theorem inRange_eq_ok_iff {value : Value} :
    inRange operation n = .ok value ↔ ∃ i : Int64, value = .integer i ∧
      i.toInt = n := by
  rw [inRange]
  cases hn : Integer.ofInt? n with
  | none =>
      constructor
      · intro h
        cases h
      · rintro ⟨i, -, hi⟩
        rw [Integer.ofInt?_eq_some_iff.2 hi] at hn
        cases hn
  | some i =>
      have hi := Integer.ofInt?_eq_some_iff.1 hn
      constructor
      · intro h
        cases h
        exact ⟨i, rfl, hi⟩
      · rintro ⟨j, rfl, hj⟩
        rw [Int64.toInt_inj.1 (hi.trans hj.symm)]

theorem inRange_eq_error_iff {fault : Fault} :
    inRange operation n = .error fault ↔ fault = .integerOverflow operation ∧
      ¬ InRange n := by
  rw [inRange, ← Integer.ofInt?_eq_none_iff_not_inRange]
  cases Integer.ofInt? n with
  | none => simp [eq_comm]
  | some i => simp

end Ranged

section Division

/-- A fraction without what stands behind its point. -/
def truncate (x : ℚ) : Int := if 0 ≤ x then ⌊x⌋ else ⌈x⌉

theorem truncate_neg (x : ℚ) : truncate (-x) = -truncate x := by
  rcases lt_trichotomy x 0 with hneg | rfl | hpos
  · rw [truncate, truncate, if_pos (by linarith), if_neg (by linarith),
      Int.floor_neg]
  · simp [truncate]
  · rw [truncate, truncate, if_neg (by linarith), if_pos (by linarith),
      Int.ceil_neg]

theorem truncate_natCast_div (m n : Nat) :
    truncate (m / n) = (m : Int).tdiv n := by
  have hnonneg : (0 : ℚ) ≤ m / n := by positivity
  rw [truncate, if_pos hnonneg, Rat.floor_natCast_div_natCast]
  rfl

theorem truncate_div (m n : Int) : truncate (m / n) = m.tdiv n := by
  obtain ⟨a, rfl | rfl⟩ := m.eq_nat_or_neg <;> obtain ⟨b, rfl | rfl⟩ :=
    n.eq_nat_or_neg <;>
    simp [truncate_natCast_div, neg_div, div_neg, truncate_neg]

/-- A quotient is out of range only where it is the opposite of the least
integer. -/
theorem inRange_tdiv_iff {left right : Int64} (hright : right ≠ 0) :
    InRange (left.toInt.tdiv right.toInt) ↔
      ¬ (left = Int64.minValue ∧ right = -1) := by
  constructor
  · rintro hrange ⟨rfl, rfl⟩
    exact absurd hrange (by decide)
  · intro hother
    have hleft := Integer.inRange_toInt left
    have hzero := Integer.toInt_ne_zero hright
    rw [← Int64.toInt_inj, ← Int64.toInt_inj] at hother
    change ¬ (left.toInt = -2 ^ 63 ∧ right.toInt = -1) at hother
    have habs : (left.toInt.tdiv right.toInt).natAbs =
        left.toInt.natAbs / right.toInt.natAbs :=
      Int.natAbs_tdiv _ _
    unfold InRange at *
    -- By 1 and by -1 a quotient is the dividend or its opposite, and otherwise
    -- it is at most half as far from zero.
    by_cases hunit : right.toInt.natAbs = 1
    · rcases Int.natAbs_eq right.toInt with hone | hone <;>
        rw [hunit] at hone <;> rw [hone]
      · rwa [Int.natCast_one, Int.tdiv_one]
      · rw [Int.tdiv_neg, Int.natCast_one, Int.tdiv_one]
        omega
    · have hhalf : left.toInt.natAbs / right.toInt.natAbs ≤
          left.toInt.natAbs / 2 :=
        Nat.div_le_div_left (by omega) (by decide)
      omega

end Division

namespace BinaryOp

/-- The exact result of an operation on integers of any size.  There is no
dividing by zero, and a comparison has no integer for a result. -/
inductive Gives (left right : Int) : BinaryOp → Int → Prop
  | sum : Gives left right add (left + right)
  | difference : Gives left right sub (left - right)
  | product : Gives left right mul (left * right)
  | quotient (hright : right ≠ 0) :
      Gives left right div (truncate (left / right))
  | remainder (hright : right ≠ 0) :
      Gives left right mod (left - truncate (left / right) * right)

theorem Gives.unique {left right m n : Int} {op : BinaryOp}
    (hm : op.Gives left right m) (hn : op.Gives left right n) : m = n := by
  cases hm <;> cases hn <;> rfl

theorem gives_div_iff {m n k : Int} :
    div.Gives m n k ↔ n ≠ 0 ∧ k = m.tdiv n := by
  rw [← truncate_div]
  constructor
  · rintro ⟨⟩
    exact ⟨‹_›, rfl⟩
  · rintro ⟨hn, rfl⟩
    exact .quotient hn

theorem gives_mod_iff {m n k : Int} :
    mod.Gives m n k ↔ n ≠ 0 ∧ k = m.tmod n := by
  rw [Int.tmod_def, Int.mul_comm, ← truncate_div]
  constructor
  · rintro ⟨⟩
    exact ⟨‹_›, rfl⟩
  · rintro ⟨hn, rfl⟩
    exact .remainder hn

def arithmetic : List BinaryOp := [add, sub, mul, div, mod]

def comparisons : List BinaryOp := [less, equal, greater]

/-- What an operator can answer for two integers. -/
inductive Answers (left right : Int64) : BinaryOp → Except Fault Value → Prop
  | exact {op : BinaryOp} {n : Int}
      (hgives : op.Gives left.toInt right.toInt n) :
      Answers left right op (inRange (.operation left op right) n)
  /-- The remainder is in range, but the quotient is not. -/
  | refused (hleft : left = Int64.minValue) (hright : right = -1) :
      Answers left right mod
        (.error (.integerOverflow (.operation left mod right)))
  | undefined {op : BinaryOp} (hop : op = div ∨ op = mod) (hright : right = 0) :
      Answers left right op (.error .divisionByZero)
  | compared {op : BinaryOp} (hop : op ∉ arithmetic) (answer : Bool) :
      Answers left right op (.ok (.boolean answer))

theorem answers_div (left right : Int64) :
    Answers left right div (div.onIntegers left right) := by
  by_cases hright : right = 0
  · rw [onIntegers, if_pos hright]
    exact .undefined (.inl rfl) hright
  · rw [onIntegers, if_neg hright]
    exact .exact (gives_div_iff.2 ⟨Integer.toInt_ne_zero hright, rfl⟩)

theorem answers_mod (left right : Int64) :
    Answers left right mod (mod.onIntegers left right) := by
  by_cases hright : right = 0
  · rw [onIntegers, if_pos hright]
    exact .undefined (.inr rfl) hright
  · rw [onIntegers, if_neg hright]
    cases hquotient :
      inRange (.operation left mod right) (left.toInt.tdiv right.toInt) with
    | ok quotient =>
        exact .exact (gives_mod_iff.2 ⟨Integer.toInt_ne_zero hright, rfl⟩)
    | error fault =>
        obtain ⟨rfl, hout⟩ := inRange_eq_error_iff.1 hquotient
        rw [inRange_tdiv_iff hright, Decidable.not_not] at hout
        exact .refused hout.1 hout.2

theorem answers (left right : Int64) (op : BinaryOp) :
    Answers left right op (op.onIntegers left right) := by
  cases op with
  | add => exact .exact .sum
  | sub => exact .exact .difference
  | mul => exact .exact .product
  | div => exact answers_div left right
  | mod => exact answers_mod left right
  | less | greater | equal | notEqual => exact .compared (by decide) _

variable {left right : Int64} {op : BinaryOp}

theorem Gives.mem_arithmetic {m n k : Int} (h : op.Gives m n k) :
    op ∈ arithmetic := by
  cases h <;> decide

theorem Gives.abs_remainder_lt {m n k : Int} (h : mod.Gives m n k) :
    |k| < |n| := by
  obtain ⟨hn, rfl⟩ := gives_mod_iff.1 h
  rw [Int.abs_eq_natAbs, Int.abs_eq_natAbs, Int.natAbs_tmod]
  exact Int.ofNat_lt.2 (Nat.mod_lt _ (Int.natAbs_pos.2 hn))

/-- A remainder is nearer to zero than its divisor, so it is always in range. -/
theorem Gives.inRange_remainder {n : Int}
    (h : mod.Gives left.toInt right.toInt n) : InRange n := by
  have hright := Integer.inRange_toInt right
  have hlt := h.abs_remainder_lt
  rw [Int.abs_eq_natAbs, Int.abs_eq_natAbs] at hlt
  unfold InRange at *
  omega

/-- Quotient and remainder make up the dividend, and the remainder lies between
zero and the divisor on the side of the dividend. -/
theorem Gives.division {m n q k : Int} (hquotient : div.Gives m n q)
    (hremainder : mod.Gives m n k) :
    m = q * n + k ∧ |k| < |n| ∧ (k = 0 ∨ k.sign = m.sign) := by
  have hlt := hremainder.abs_remainder_lt
  obtain ⟨-, rfl⟩ := gives_div_iff.1 hquotient
  obtain ⟨-, rfl⟩ := gives_mod_iff.1 hremainder
  refine ⟨?_, hlt, ?_⟩
  · rw [Int.mul_comm, Int.mul_tdiv_add_tmod]
  · have hsign := Int.sign_tmod m n
    split at hsign
    · exact .inl (Int.sign_eq_zero_iff_zero.1 hsign)
    · exact .inr hsign

theorem gives_of_onIntegers {n : Int64}
    (h : op.onIntegers left right = .ok (.integer n)) :
    op.Gives left.toInt right.toInt n.toInt := by
  have hanswers := answers left right op
  generalize op.onIntegers left right = result at h hanswers
  cases hanswers with
  | exact hgives =>
      obtain ⟨i, hi, rfl⟩ := inRange_eq_ok_iff.1 h
      cases hi
      exact hgives
  | refused | undefined | compared => cases h

/-- Arithmetic ends with an integer or is refused. -/
theorem onIntegers_of_arithmetic (hop : op ∈ arithmetic) :
    (∃ n, op.onIntegers left right = .ok (.integer n)) ∨
      op.onIntegers left right = .error .divisionByZero ∨
      op.onIntegers left right =
        .error (.integerOverflow (.operation left op right)) := by
  have hanswers := answers left right op
  generalize op.onIntegers left right = result at hanswers
  cases hanswers with
  | exact hgives =>
      cases hn : inRange (.operation left op right) _ with
      | ok value =>
          obtain ⟨i, rfl, -⟩ := inRange_eq_ok_iff.1 hn
          exact .inl ⟨i, rfl⟩
      | error fault =>
          exact .inr (.inr (congrArg _ (inRange_eq_error_iff.1 hn).1))
  | refused => exact .inr (.inr rfl)
  | undefined => exact .inr (.inl rfl)
  | compared hcompared => exact absurd hop hcompared

theorem onIntegers_eq_divisionByZero_iff :
    op.onIntegers left right = .error .divisionByZero ↔ (op = div ∨ op = mod) ∧
      right = 0 := by
  constructor
  · intro h
    have hanswers := answers left right op
    generalize op.onIntegers left right = result at h hanswers
    cases hanswers with
    | exact => cases (inRange_eq_error_iff.1 h).1
    | undefined hop hright => exact ⟨hop, hright⟩
    | refused | compared => cases h
  · rintro ⟨rfl | rfl, rfl⟩ <;> rfl

/-- Where an operation is defined it is exact, with one exception. -/
theorem Gives.onIntegers_eq {n : Int}
    (hgives : op.Gives left.toInt right.toInt n)
    (hother : ¬ (op = mod ∧ left = Int64.minValue ∧ right = -1)) :
    op.onIntegers left right = inRange (.operation left op right) n := by
  have hanswers := answers left right op
  generalize op.onIntegers left right = result at hanswers
  cases hanswers with
  | exact hgives' => rw [hgives'.unique hgives]
  | refused hleft hright => exact absurd ⟨rfl, hleft, hright⟩ hother
  | undefined hop hright =>
      have hzero : right.toInt = 0 := congrArg Int64.toInt hright
      rcases hop with rfl | rfl
      · exact absurd hzero (gives_div_iff.1 hgives).1
      · exact absurd hzero (gives_mod_iff.1 hgives).1
  | compared hop => exact absurd hgives.mem_arithmetic hop

theorem Gives.exists_ok_iff {n : Int}
    (hgives : op.Gives left.toInt right.toInt n) :
    (∃ value, op.onIntegers left right = .ok value) ↔
      InRange n ∧ ¬ (op = mod ∧ left = Int64.minValue ∧ right = -1) := by
  by_cases hother : op = mod ∧ left = Int64.minValue ∧ right = -1
  · obtain ⟨rfl, rfl, rfl⟩ := hother
    constructor
    · rintro ⟨value, hvalue⟩
      cases hvalue
    · rintro ⟨-, hother⟩
      exact absurd ⟨rfl, rfl, rfl⟩ hother
  · rw [hgives.onIntegers_eq hother]
    constructor
    · rintro ⟨value, hvalue⟩
      obtain ⟨i, -, rfl⟩ := inRange_eq_ok_iff.1 hvalue
      exact ⟨Integer.inRange_toInt i, hother⟩
    · rintro ⟨hrange, -⟩
      obtain ⟨i, hi⟩ := Integer.exists_toInt_eq hrange
      exact ⟨.integer i, inRange_eq_ok_iff.2 ⟨i, rfl, hi⟩⟩

/-- A quotient is refused at the same operands as a remainder. -/
theorem exists_div_iff_exists_mod (hright : right ≠ 0) :
    (∃ quotient, div.onIntegers left right = .ok quotient) ↔
      ∃ remainder, mod.onIntegers left right = .ok remainder := by
  have hquotient : div.Gives left.toInt right.toInt _ :=
    gives_div_iff.2 ⟨Integer.toInt_ne_zero hright, rfl⟩
  have hremainder : mod.Gives left.toInt right.toInt _ :=
    gives_mod_iff.2 ⟨Integer.toInt_ne_zero hright, rfl⟩
  rw [hquotient.exists_ok_iff, hremainder.exists_ok_iff,
    inRange_tdiv_iff hright]
  simp [hremainder.inRange_remainder]

/-- When an operation is refused as an overflow. -/
theorem onIntegers_eq_overflow_iff {operation : Overflow} :
    op.onIntegers left right = .error (.integerOverflow operation) ↔
      operation = .operation left op right ∧
        ((∃ n, op.Gives left.toInt right.toInt n ∧ ¬ InRange n) ∨
          op = mod ∧ left = Int64.minValue ∧ right = -1) := by
  constructor
  · intro h
    have hanswers := answers left right op
    generalize op.onIntegers left right = result at h hanswers
    cases hanswers with
    | exact hgives =>
        obtain ⟨hoperation, hout⟩ := inRange_eq_error_iff.1 h
        cases hoperation
        exact ⟨rfl, .inl ⟨_, hgives, hout⟩⟩
    | refused hleft hright =>
        cases h
        exact ⟨rfl, .inr ⟨rfl, hleft, hright⟩⟩
    | undefined | compared => cases h
  · rintro ⟨rfl, hcause⟩
    by_cases hother : op = mod ∧ left = Int64.minValue ∧ right = -1
    · obtain ⟨rfl, rfl, rfl⟩ := hother
      rfl
    · obtain ⟨n, hgives, hout⟩ := hcause.resolve_right hother
      rw [hgives.onIntegers_eq hother]
      exact inRange_eq_error_iff.2 ⟨rfl, hout⟩

/-- Taking away is adding the opposite, where there is one. -/
theorem sub_eq_add_negate {opposite total difference : Value}
    (hopposite : UnaryOp.negate.apply (.integer right) = .ok opposite)
    (htotal : add.apply (.integer left) opposite = .ok total)
    (hdifference : sub.onIntegers left right = .ok difference) :
    difference = total := by
  obtain ⟨i, rfl, hi⟩ := inRange_eq_ok_iff.1 hopposite
  obtain ⟨j, rfl, hj⟩ := inRange_eq_ok_iff.1 htotal
  obtain ⟨k, rfl, hk⟩ := inRange_eq_ok_iff.1 hdifference
  congr 1
  rw [← Int64.toInt_inj, hj, hk, hi, Int.sub_eq_add_neg]

/-- The comparison that asks whether two integers stand in this order. -/
def ofOrdering : Ordering → BinaryOp
  | .lt => less
  | .eq => equal
  | .gt => greater

theorem onIntegers_ofOrdering (order : Ordering) (left right : Int64) :
    (ofOrdering order).onIntegers left right =
      .ok (.boolean (compare left.toInt right.toInt = order)) := by
  cases order with
  | lt => simp [ofOrdering, onIntegers, compare_lt_iff_lt]
  | eq =>
      change Except.ok (Value.boolean (left = right)) = _
      simp [Int64.toInt_inj]
  | gt => simp [ofOrdering, onIntegers, compare_gt_iff_gt]

/-- Two integers compare in one way only. -/
theorem existsUnique_comparison (left right : Int64) :
    ∃! op, op ∈ comparisons ∧
      op.onIntegers left right = .ok (.boolean true) := by
  have hcomparisons : ∀ op, op ∈ comparisons ↔
      ∃ order, ofOrdering order = op := by
    intro op
    cases op <;> decide
  refine ⟨ofOrdering (compare left.toInt right.toInt),
    ⟨(hcomparisons _).2 ⟨_, rfl⟩, ?_⟩, ?_⟩
  · rw [onIntegers_ofOrdering, decide_eq_true rfl]
  · rintro op ⟨hop, htrue⟩
    obtain ⟨order, rfl⟩ := (hcomparisons op).1 hop
    rw [onIntegers_ofOrdering] at htrue
    rw [of_decide_eq_true (Value.boolean.inj (Except.ok.inj htrue))]

/-- Whatever an operation comes to is its exact result, and what it does not
come to is refused.  Dividing by zero is refused as such.  Quotients and
remainders come together or not at all, and belong together as they should;
taking away is adding the opposite; and two integers compare in one way only. -/
theorem exact_or_refused (left right : Int64) :
    (∀ op ∈ arithmetic,
      (∃ n, op.onIntegers left right = .ok (.integer n)) ∨
        op.onIntegers left right = .error .divisionByZero ∨
        op.onIntegers left right =
          .error (.integerOverflow (.operation left op right))) ∧
      (∀ (op : BinaryOp) (n : Int64), op.onIntegers left right =
        .ok (.integer n) →
        op.Gives left.toInt right.toInt n.toInt) ∧
      (∀ op : BinaryOp, op.onIntegers left right = .error .divisionByZero ↔
        (op = div ∨ op = mod) ∧ right = 0) ∧
      (right ≠ 0 →
        ((∃ quotient, div.onIntegers left right = .ok quotient) ↔
          ∃ remainder, mod.onIntegers left right = .ok remainder)) ∧
      (∀ quotient remainder,
        div.onIntegers left right = .ok (.integer quotient) →
        mod.onIntegers left right = .ok (.integer remainder) →
        left.toInt = quotient.toInt * right.toInt + remainder.toInt ∧
          |remainder.toInt| < |right.toInt| ∧
          (remainder.toInt = 0 ∨ remainder.toInt.sign = left.toInt.sign)) ∧
      (∀ opposite total difference,
        UnaryOp.negate.apply (.integer right) = .ok opposite →
        add.apply (.integer left) opposite = .ok total →
        sub.onIntegers left right = .ok difference → difference = total) ∧
      (∀ order, (ofOrdering order).onIntegers left right =
        .ok (.boolean (compare left.toInt right.toInt = order))) ∧
      ∃! op, op ∈ comparisons ∧
      op.onIntegers left right = .ok (.boolean true) := by
  refine ⟨fun op => onIntegers_of_arithmetic, fun op n => gives_of_onIntegers,
    fun op => onIntegers_eq_divisionByZero_iff, exists_div_iff_exists_mod, ?_,
    fun _ _ _ => sub_eq_add_negate, fun order =>
      onIntegers_ofOrdering order left right,
    existsUnique_comparison left right⟩
  intro quotient remainder hquotient hremainder
  exact (gives_of_onIntegers hquotient).division
    (gives_of_onIntegers hremainder)

/-- The least integer by -10: a quotient, a remainder on the side of the
dividend, and a difference that is also a sum. -/
theorem exact_or_refused_least :
    let left := Int64.minValue
    let right : Int64 := -10
    div.onIntegers left right = .ok (.integer 922337203685477580) ∧
      mod.onIntegers left right = .ok (.integer (-8)) ∧
      div.Gives left.toInt right.toInt 922337203685477580 ∧
      left.toInt = 922337203685477580 * right.toInt + -8 ∧
      (∃ total, add.apply (.integer left) (.integer 10) = .ok total ∧
        sub.onIntegers left right = .ok total) ∧
      ∃ remainder, mod.onIntegers left right = .ok remainder := by
  intro left right
  obtain ⟨-, hexact, -, htogether, hdivision, hsub, -⟩ :=
    exact_or_refused left right
  have hquotient : div.onIntegers left right =
      .ok (.integer 922337203685477580) := rfl
  have hremainder : mod.onIntegers left right = .ok (.integer (-8)) := rfl
  have hdifference : sub.onIntegers left right =
      .ok (.integer (-9223372036854775798)) := rfl
  refine ⟨hquotient, hremainder, hexact div _ hquotient,
    (hdivision _ _ hquotient hremainder).1, ⟨_, rfl, ?_⟩,
    (htogether (by decide)).1 ⟨_, hquotient⟩⟩
  rw [hdifference, hsub (.integer 10) _ _ rfl rfl hdifference]

/-- An operation is refused because its result would be out of range. -/
def Overflows (op : BinaryOp) (left right : Int64) : Prop :=
  ∃ operation, op.onIntegers left right = .error (.integerOverflow operation)

theorem overflows_iff : op.Overflows left right ↔
    (∃ n, op.Gives left.toInt right.toInt n ∧ ¬ InRange n) ∨
      op = mod ∧ left = Int64.minValue ∧ right = -1 := by
  constructor
  · rintro ⟨operation, h⟩
    exact (onIntegers_eq_overflow_iff.1 h).2
  · intro hcause
    exact ⟨_, onIntegers_eq_overflow_iff.2 ⟨rfl, hcause⟩⟩

/-- An operation overflows exactly where it has a result and the result is out
of range, unless it is the remainder of the least integer by -1.  A negation
always does so. -/
theorem overflows_exactly_iff (left right : Int64) :
    (∀ op : BinaryOp,
      (op.Overflows left right ↔
        ∃ n, op.Gives left.toInt right.toInt n ∧ ¬ InRange n) ↔
        ¬ (op = mod ∧ left = Int64.minValue ∧ right = -1)) ∧
      ((∃ operation, UnaryOp.negate.apply (.integer left) =
        .error (.integerOverflow operation)) ↔
        ¬ InRange (-left.toInt)) := by
  constructor
  · intro op
    rw [overflows_iff]
    constructor
    · rintro hexactly ⟨rfl, hother⟩
      obtain ⟨n, hgives, hout⟩ := hexactly.1 (.inr ⟨rfl, hother⟩)
      exact hout hgives.inRange_remainder
    · intro hother
      exact or_iff_left hother
  · constructor
    · rintro ⟨operation, h⟩
      exact (inRange_eq_error_iff.1 h).2
    · intro hout
      exact ⟨_, inRange_eq_error_iff.2 ⟨rfl, hout⟩⟩

/-- The remainder of the least integer by -1 is 0, and it overflows. -/
theorem mod_overflows_in_range :
    mod.Overflows Int64.minValue (-1) ∧
      mod.Gives Int64.minValue.toInt (-1 : Int64).toInt 0 ∧
      ¬ ∃ n, mod.Gives Int64.minValue.toInt (-1 : Int64).toInt n ∧
      ¬ InRange n := by
  refine ⟨⟨_, rfl⟩, gives_mod_iff.2 ⟨by decide, rfl⟩, ?_⟩
  rintro ⟨n, hgives, hout⟩
  exact hout hgives.inRange_remainder

end BinaryOp

end Scriptlet
