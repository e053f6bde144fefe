/-
Signed 64-bit integers as the language uses them.  Arithmetic is done on
mathematical integers and brought back into range by `ofInt?`, so a result is
either exact or refused.
-/

namespace Scriptlet

namespace Integer

/-- The 64-bit integer equal to `n`, if `n` is in range. -/
def ofInt? (n : Int) : Option Int64 :=
  if Int64.minValue.toInt ≤ n ∧ n ≤ Int64.maxValue.toInt then
    some (Int64.ofInt n) else none

/-- The list position that `n` names; a negative integer names none. -/
def toIndex? (n : Int64) : Option Nat :=
  if 0 ≤ n.toInt then some n.toInt.toNat else none

/-- Decimal text, with a leading minus sign for negative integers. -/
def toText (n : Int64) : String := toString n.toInt

/-- The number that a non-empty run of ASCII digits stands for. -/
def magnitude? (digits : List Char) : Option Nat :=
  if digits ≠ [] ∧ digits.all Char.isDigit then
    some (Nat.ofDigitChars 10 digits 0)
  else none

/-- Reads decimal text: at most one sign, then digits, with a value in range. -/
def ofText? (text : String) : Option Int64 :=
  match text.toList with
  | '-' :: digits => (magnitude? digits).bind fun n => ofInt? (-n)
  | '+' :: digits => (magnitude? digits).bind fun n => ofInt? n
  | digits => (magnitude? digits).bind fun n => ofInt? n

theorem toInt_of_ofInt?_eq_some {n : Int} {i : Int64} (h : ofInt? n = some i) :
    i.toInt = n := by
  unfold ofInt? at h
  split at h
  · next hrange =>
      cases h
      have hmax : n < Int64.maxValue.toInt + 1 := Int.lt_add_one_of_le hrange.2
      exact Int64.toInt_ofInt_of_le hrange.1 hmax
  · cases h

theorem ofInt?_toInt (i : Int64) : ofInt? i.toInt = some i := by
  have hrange : Int64.minValue.toInt ≤ i.toInt ∧
      i.toInt ≤ Int64.maxValue.toInt :=
    ⟨i.le_toInt, Int.le_of_lt_add_one i.toInt_lt⟩
  rw [ofInt?, if_pos hrange, Int64.ofInt_toInt]

theorem ofInt?_eq_none_iff {n : Int} :
    ofInt? n = none ↔
      ¬ (Int64.minValue.toInt ≤ n ∧ n ≤ Int64.maxValue.toInt) := by
  unfold ofInt?
  split
  · next hrange =>
      exact ⟨fun h => (nomatch h), fun h => absurd hrange h⟩
  · next hrange => exact ⟨fun _ => hrange, fun _ => rfl⟩

end Integer

end Scriptlet
