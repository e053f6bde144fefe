/-
Arrays through the functions that programs have for them.  Taking the rest again
and again, indexing, counting, and pushing all speak of one list of elements,
and a loop that takes an array apart with some of them puts it together again
with the others.
-/
import Scriptlet.Proofs.Arithmetic
import Scriptlet.Proofs.Value.Equality

namespace Scriptlet

open Integer (InRange)

section Index

variable {elements : List Value} {i : Int64}

theorem Value.index_of_toInt_eq {position : Nat} (h : i.toInt = position) :
    (Value.array elements).index (.integer i) =
      .ok (elements[position]?.getD .null) := by
  have hindex : Integer.toIndex? i = some position := by
    rw [Integer.toIndex?, if_pos (by omega), h, Int.toNat_natCast]
  rw [Value.index, hindex]
  rfl

theorem Value.index_of_neg (h : i.toInt < 0) :
    (Value.array elements).index (.integer i) = .ok .null := by
  rw [Value.index, Integer.toIndex?, if_neg (by omega)]
  rfl

/-- There is nothing at a position outside an array. -/
theorem Value.index_of_outside
    (h : ¬ (0 ≤ i.toInt ∧ i.toInt < elements.length)) :
    (Value.array elements).index (.integer i) = .ok .null := by
  by_cases hneg : i.toInt < 0
  · exact index_of_neg hneg
  · obtain ⟨position, hposition⟩ := Int.eq_ofNat_of_zero_le (Int.not_lt.1 hneg)
    rw [index_of_toInt_eq hposition, List.getElem?_eq_none (by omega)]
    rfl

/-- The elements of an array stay where they are when others are put behind
them. -/
theorem Value.index_append (values : List Value)
    (h : i.toInt < elements.length) :
    (Value.array (elements ++ values)).index (.integer i) =
      (Value.array elements).index (.integer i) := by
  by_cases hneg : i.toInt < 0
  · rw [index_of_neg hneg, index_of_neg hneg]
  · obtain ⟨position, hposition⟩ := Int.eq_ofNat_of_zero_le (Int.not_lt.1 hneg)
    rw [index_of_toInt_eq hposition, index_of_toInt_eq hposition,
      List.getElem?_append_left (by omega)]

/-- Whatever is put behind an array comes after its last position. -/
theorem Value.index_append_right {values : List Value} {position : Nat}
    (hposition : position < values.length)
    (h : i.toInt = elements.length + position) :
    (Value.array (elements ++ values)).index (.integer i) =
      .ok values[position] := by
  have hplace : i.toInt = (elements.length + position : Nat) := by omega
  rw [index_of_toInt_eq hplace, List.getElem?_append_right (by omega),
    Nat.add_sub_cancel_left, List.getElem?_eq_getElem hposition]
  rfl

end Index

namespace Builtin

variable {store : Store}

theorem call_len_array {elements : List Value} (h : InRange elements.length)
    (store : Store) :
    ∃ count : Int64, count.toInt = elements.length ∧
      len.call [.array elements] store = .ok (.integer count) store := by
  obtain ⟨count, hcount⟩ := Integer.exists_toInt_eq h
  refine ⟨count, hcount, ?_⟩
  have hlength : ofLength elements.length = .ok count := by
    rw [ofLength, ← hcount, Integer.ofInt?_toInt]
  rw [call, lenOf, hlength]
  rfl

/-- Takes the rest of a value so many times over. -/
def restTimes : Nat → Value → EvalM Value
  | 0, value => return value
  | times + 1, value => do
      let value ← rest.call [value]
      restTimes times value

theorem restTimes_of_le (elements : List Value) {times : Nat}
    (h : times ≤ elements.length) :
    restTimes times (.array elements) store =
      .ok (.array (elements.drop times)) store := by
  induction times generalizing elements with
  | zero => rfl
  | succ times ih =>
      cases elements with
      | nil => cases h
      | cons first others => exact ih others (Nat.le_of_succ_le_succ h)

theorem restTimes_succ_length (elements : List Value) :
    restTimes (elements.length + 1) (.array elements) store =
      .ok .null store := by
  induction elements with
  | nil => rfl
  | cons first others ih => exact ih

/-- There is no rest of what comes after the last rest. -/
theorem restTimes_of_gt (elements : List Value) {times : Nat}
    (h : elements.length + 1 < times) :
    restTimes times (.array elements) store =
      .error (.notAnArray .rest .null) store := by
  induction elements generalizing times with
  | nil =>
      obtain ⟨more, rfl⟩ := Nat.exists_eq_add_of_le' h
      rfl
  | cons first others ih =>
      obtain ⟨more, rfl⟩ := Nat.exists_eq_add_of_le' h
      exact ih (Nat.lt_add_left more (Nat.lt_succ_self _))

/-- The first of what is left after so many times is the element at that
position. -/
theorem first_restTimes (elements : List Value) {times : Nat}
    (h : times < elements.length) :
    (do
        let left ← restTimes times (.array elements)
        first.call [left]) store = .ok elements[times] store := by
  rw [EvalM.bind_of_ok (restTimes_of_le elements (Nat.le_of_lt h)),
    List.drop_eq_getElem_cons h]
  rfl

/-- What one turn of a loop over an array does: the first element of what is
left goes to the end of what has been taken. -/
def takeFirst (taken left : Value) : EvalM (Value × Value) := do
  let element ← first.call [left]
  let taken ← push.call [taken, element]
  let left ← rest.call [left]
  return (taken, left)

/-- Taking the first element for as long as anything is left ends with
`result`. -/
inductive TakesAll :
    (taken left : Value) → Store → (result : Value) → Store → Prop
  | done {taken left : Value} {store after : Store}
      (hlen : len.call [left] store = .ok (.integer 0) after) :
      TakesAll taken left store taken after
  | turn {taken left taken' left' result : Value} {count : Int64}
      {store counted middle after : Store}
      (hlen : len.call [left] store = .ok (.integer count) counted)
        (hcount : count ≠ 0)
      (hturn : takeFirst taken left counted = .ok (taken', left') middle)
      (hrest : TakesAll taken' left' middle result after) :
      TakesAll taken left store result after

theorem TakesAll.unique {taken left result result' : Value}
    {after after' : Store} (h : TakesAll taken left store result after)
    (h' : TakesAll taken left store result' after') :
    result' = result ∧ after' = after := by
  induction h with
  | done hlen =>
      cases h' with
      | done hlen' =>
          rw [hlen] at hlen'
          cases hlen'
          exact ⟨rfl, rfl⟩
      | turn hlen' hcount =>
          rw [hlen] at hlen'
          cases hlen'
          exact absurd rfl hcount
  | turn hlen hcount hturn _ ih =>
      cases h' with
      | done hlen' =>
          rw [hlen] at hlen'
          cases hlen'
          exact absurd rfl hcount
      | turn hlen' _ hturn' hrest' =>
          rw [hlen] at hlen'
          cases hlen'
          rw [hturn] at hturn'
          cases hturn'
          exact ih hrest'

/-- The loop takes all elements, behind those it has taken already. -/
theorem takesAll_array (taken : List Value) {elements : List Value}
    (h : InRange elements.length) (store : Store) :
    TakesAll (.array taken) (.array elements) store (.array (taken ++ elements))
      store := by
  -- On what is left, for whatever has been taken: every turn moves one element
  -- across.
  induction elements generalizing taken with
  | nil =>
      rw [List.append_nil]
      exact .done rfl
  | cons first others ih =>
      have hothers : others.length ≤ (first :: others).length :=
        Nat.le_succ others.length
      have hrest := ih (taken ++ [first]) (h.of_le hothers)
      rw [List.append_assoc, List.singleton_append] at hrest
      obtain ⟨count, hcount, hlen⟩ := call_len_array h store
      refine .turn hlen ?_ rfl hrest
      rintro rfl
      have hzero : (0 : Int64).toInt = 0 := rfl
      rw [List.length_cons] at hcount
      omega

/-- The last element of an array is the one at its last position. -/
theorem call_last_array {elements : List Value} {i : Int64}
    (h : i.toInt = elements.length - 1) (store : Store) :
    ∃ element, last.call [.array elements] store = .ok element store ∧
      (Value.array elements).index (.integer i) = .ok element := by
  refine ⟨elements.getLast?.getD .null, rfl, ?_⟩
  by_cases hempty : elements = []
  · subst hempty
    rw [List.length_nil] at h
    exact Value.index_of_neg (by omega)
  · have hlength := List.length_pos_iff.2 hempty
    have hplace : i.toInt = (elements.length - 1 : Nat) := by omega
    rw [Value.index_of_toInt_eq hplace, List.getLast?_eq_getElem?]

/-- The functions that programs have for arrays, and indexing, all speak of one
list of elements.  None of them changes the store, so an array stays what it is
for whoever has it. -/
theorem describe_one_list (elements : List Value)
    (hlength : InRange elements.length) (store : Store) :
    (∀ times ≤ elements.length, ∃ count : Int64,
      count.toInt = elements.length - times ∧
        restTimes times (.array elements) store =
          .ok (.array (elements.drop times)) store ∧
        len.call [.array (elements.drop times)] store =
          .ok (.integer count) store) ∧
      restTimes (elements.length + 1) (.array elements) store =
        .ok .null store ∧
      (∀ times > elements.length + 1,
        restTimes times (.array elements) store =
          .error (.notAnArray .rest .null) store) ∧
      (∀ (i : Int64) (position : Nat) (hposition : position < elements.length),
        i.toInt = position →
          (do
              let left ← restTimes position (.array elements)
              first.call [left]) store = .ok elements[position] store ∧
            (Value.array elements).index (.integer i) =
              .ok elements[position]) ∧
      (∀ i : Int64, ¬ (0 ≤ i.toInt ∧ i.toInt < elements.length) →
        (Value.array elements).index (.integer i) = .ok .null) ∧
      (∃ (i : Int64) (element : Value), i.toInt = elements.length - 1 ∧
        last.call [.array elements] store = .ok element store ∧
        (Value.array elements).index (.integer i) = .ok element ∧
        (elements = [] → element = .null)) ∧
      (∃ result, TakesAll (.array []) (.array elements) store result store ∧
        (result == .array elements) = true ∧
        ∀ result' after,
          TakesAll (.array []) (.array elements) store result' after →
          result' = result ∧ after = store) ∧
      push.call [.array elements] store =
        .error (.argumentCount 1 (.atLeast 2)) store ∧
      (∀ values : List Value, values ≠ [] →
        InRange (elements.length + values.length : Nat) →
          ∃ (longer : Value) (count : Int64),
            count.toInt = elements.length + values.length ∧
            push.call (.array elements :: values) store = .ok longer store ∧
            len.call [longer] store = .ok (.integer count) store ∧
            (∀ i : Int64, i.toInt < elements.length →
              longer.index (.integer i) =
                (Value.array elements).index (.integer i)) ∧
            ∀ (i : Int64) (position : Nat)
              (hposition : position < values.length),
              i.toInt = elements.length + position →
                longer.index (.integer i) = .ok values[position]) := by
  refine ⟨?_, restTimes_succ_length elements,
    fun _ => restTimes_of_gt elements, ?_, fun i => Value.index_of_outside,
    ?_, ?_, rfl, ?_⟩
  · intro times htimes
    have hdrop : (elements.drop times).length = elements.length - times :=
      List.length_drop
    have hrange : InRange (elements.drop times).length :=
      hlength.of_le (by omega)
    obtain ⟨count, hcount, hlen⟩ := call_len_array hrange store
    exact ⟨count, by omega, restTimes_of_le elements htimes, hlen⟩
  · intro i position hposition hi
    refine ⟨first_restTimes elements hposition, ?_⟩
    rw [Value.index_of_toInt_eq hi, List.getElem?_eq_getElem hposition]
    rfl
  · obtain ⟨i, hi⟩ : ∃ i : Int64, i.toInt = elements.length - 1 := by
      apply Integer.exists_toInt_eq
      unfold InRange at *
      omega
    obtain ⟨element, hlast, hindex⟩ := call_last_array hi store
    refine ⟨i, element, hi, hlast, hindex, ?_⟩
    rintro rfl
    cases hlast
    rfl
  · refine ⟨.array elements, takesAll_array [] hlength store,
      Value.beq_refl _, ?_⟩
    intro result' after h
    exact (takesAll_array [] hlength store).unique h
  · intro values hvalues hlonger
    obtain ⟨value, others, rfl⟩ := List.exists_cons_of_ne_nil hvalues
    rw [← List.length_append] at hlonger
    obtain ⟨count, hcount, hlen⟩ := call_len_array hlonger store
    rw [List.length_append] at hcount
    exact ⟨.array (elements ++ value :: others), count, by omega, rfl, hlen,
      fun i => Value.index_append _, fun i position => Value.index_append_right⟩

/-- An array of three elements, taken apart and with two more behind them. -/
theorem describe_one_list_three :
    let elements : List Value := [.integer 7, .null, .array []]
    let values : List Value := [.boolean true, .integer 8]
    InRange elements.length ∧
      restTimes 2 (.array elements) .empty = .ok (.array [.array []]) .empty ∧
      (Value.array elements).index (.integer 2) = .ok (.array []) ∧
      (Value.array elements).index (.integer (-1)) = .ok .null ∧
      (∃ result, TakesAll (.array []) (.array elements) .empty result .empty ∧
        (result == .array elements) = true) ∧
      ∃ longer, push.call (.array elements :: values) .empty =
        .ok longer .empty ∧
        longer.index (.integer 0) = (Value.array elements).index (.integer 0) ∧
        longer.index (.integer 4) = .ok (.integer 8) := by
  intro elements values
  have hlength : InRange elements.length := by decide
  obtain ⟨hrest, -, -, hinside, houtside, -, ⟨result, htakes, hequal, -⟩,
      -, hpush⟩ :=
    describe_one_list elements hlength .empty
  obtain ⟨-, -, htwice, -⟩ := hrest 2 (by decide)
  obtain ⟨longer, -, -, hlonger, -, hbelow, hbehind⟩ :=
    hpush values (by simp [values]) (by decide)
  exact ⟨hlength, htwice, (hinside 2 2 (by decide) rfl).2,
    houtside (-1) (by decide), ⟨result, htakes, hequal⟩, longer, hlonger,
    hbelow 0 (by decide), hbehind 4 1 (by decide) (by decide)⟩

end Builtin

end Scriptlet
