/-
One evaluator for many operations.  All that an evaluator keeps is a limit and
the count of the expressions that are being run.  The count is zero whenever an
operation starts, and it is zero again at its end, whether that is a value, a
return or a fault, so that no operation can tell what the evaluator was used for
before.
-/
import Scriptlet.Proofs.Eval.Machine

namespace Scriptlet

namespace Eval

/-- What an evaluator can be asked for. -/
def Routine.IsRequest : Routine → Prop
  | .inner .. => False
  | _ => True

/-- An operation: what was asked for, the store and the count that it started
with, the answer that was given, and the store and the count that it left. -/
structure Operation where
  routine : Routine
  before : Memory
  answer : routine.Answer
  after : Memory

/-- The machine takes the operation from its start to its end. -/
def Operation.Ran (limit : Nat) (operation : Operation) : Prop :=
  (machine (some limit)).Reaches
    ((machine (some limit)).initial operation.routine operation.before)
    ((machine (some limit)).final operation.routine operation.answer
      operation.after)

/-- The operations that were done with a new evaluator so far, and the count
that it is left with.  Nothing but the count goes from one operation to the
next; each may have a store of its own. -/
inductive History (limit : Nat) : List Operation → Nat → Prop
  | fresh : History limit [] 0
  | next {operations : List Operation} {operation : Operation}
      (hbefore : History limit operations operation.before.depth)
      (hrequest : operation.routine.IsRequest) (hran : operation.Ran limit) :
      History limit (operations ++ [operation]) operation.after.depth

theorem Routine.IsRequest.fits {routine : Routine} (h : routine.IsRequest)
    (limit : Nat) (store : Store) : Fits (some limit) [routine] ⟨store, 0⟩ := by
  refine fits_zero store ?_
  cases routine with
  | inner scope e => cases h
  | _ => rfl

/-- Whatever the evaluator gives, it ends with the count that it started
with. -/
theorem Routine.depth_answer (limit : Nat) (store : Store) (routine : Routine) :
    (routine.answer limit ⟨store, 0⟩).2.depth = 0 := by
  cases routine <;> rfl

/-- With a count of zero, an operation can only end in one way. -/
theorem Operation.Ran.eq_answer {limit : Nat} {operation : Operation}
    (h : operation.Ran limit) (hrequest : operation.routine.IsRequest)
    {store : Store} (hbefore : operation.before = ⟨store, 0⟩) :
    (operation.answer, operation.after) =
      operation.routine.answer limit ⟨store, 0⟩ := by
  rw [Operation.Ran, hbefore] at h
  have hyields := yields_answer (hrequest.fits limit store)
  have hend := (Machine.run_of_yields (M := machine (some limit)) hyields h).2
  obtain ⟨hanswer, hafter⟩ := Machine.eq_of_reaches_final hend
  exact Prod.ext hanswer hafter

theorem Operation.Ran.depth_after {limit : Nat} {operation : Operation}
    (h : operation.Ran limit) (hrequest : operation.routine.IsRequest)
    (hbefore : operation.before.depth = 0) : operation.after.depth = 0 := by
  have hzero : operation.before = ⟨operation.before.store, 0⟩ := by
    rw [← hbefore]
  have hafter := congrArg Prod.snd (h.eq_answer hrequest hzero)
  exact (congrArg Memory.depth hafter).trans
    (Routine.depth_answer limit _ operation.routine)

/-- The step above for all the operations of a history. -/
theorem History.depth_eq_zero {limit depth : Nat} {operations : List Operation}
    (h : History limit operations depth) :
    depth = 0 ∧ ∀ operation ∈ operations, operation.routine.IsRequest ∧
      operation.Ran limit ∧
      operation.before.depth = 0 ∧ operation.after.depth = 0 := by
  induction h with
  | fresh => exact ⟨rfl, fun operation hoperation => nomatch hoperation⟩
  | @next operations operation _ hrequest hran ih =>
      obtain ⟨hbefore, hearlier⟩ := ih
      have hafter := hran.depth_after hrequest hbefore
      refine ⟨hafter, fun earlier hmem => ?_⟩
      rcases List.mem_append.1 hmem with hmem | hmem
      · exact hearlier earlier hmem
      · obtain rfl := List.mem_singleton.1 hmem
        exact ⟨hrequest, hran, hbefore, hafter⟩

/-- Whatever an evaluator has been used for, its count is zero and it can be
asked for anything in any store.  Every operation starts and ends with a count
of zero, meanwhile the count is never over the limit, and it ends as the same
operation with a new evaluator in the same store can only end: as the evaluator
functions say. -/
theorem carries_nothing_over {limit depth : Nat} {operations : List Operation}
    (h : History limit operations depth) :
    depth = 0 ∧
      (∀ operation ∈ operations,
        operation.before.depth = 0 ∧ operation.after.depth = 0 ∧
        (∀ state, (machine (some limit)).Reaches
            ((machine (some limit)).initial operation.routine operation.before)
              state →
          evaluations state.active ≤ state.memory.depth ∧
          state.memory.depth ≤ limit) ∧
        (∀ alone : Operation, alone.routine = operation.routine →
          alone.before = ⟨operation.before.store, 0⟩ → alone.Ran limit →
          alone = operation) ∧
        (operation.answer, operation.after) =
          operation.routine.answer limit ⟨operation.before.store, 0⟩) ∧
      ∀ (routine : Routine) (store : Store), routine.IsRequest →
        ∃ operation : Operation, operation.routine = routine ∧
        operation.before = ⟨store, depth⟩ ∧
          History limit (operations ++ [operation]) operation.after.depth := by
  obtain ⟨rfl, hall⟩ := h.depth_eq_zero
  refine ⟨rfl, fun operation hmem => ?_, fun routine store hrequest => ?_⟩
  · obtain ⟨hrequest, hran, hbefore, hafter⟩ := hall operation hmem
    have hzero : operation.before = ⟨operation.before.store, 0⟩ := by
      rw [← hbefore]
    have hanswer := hran.eq_answer hrequest hzero
    refine ⟨hbefore, hafter, fun state hstate => ?_,
      fun alone hroutine halone hends => ?_, hanswer⟩
    · have hyields := yields_answer (hrequest.fits limit operation.before.store)
      rw [hzero] at hstate
      have hfits :=
        (Machine.run_of_yields (M := machine (some limit)) hyields hstate).1
      exact ⟨hfits.evaluations_le, hfits.depth_le limit rfl⟩
    · obtain ⟨routine, before, answer, after⟩ := operation
      obtain ⟨routine', before', answer', after'⟩ := alone
      cases hroutine
      have hsame := (hends.eq_answer hrequest halone).trans hanswer.symm
      cases hsame
      rw [Operation.mk.injEq]
      exact ⟨rfl, halone.trans hzero.symm, HEq.rfl, rfl⟩
  · have hyields := yields_answer (hrequest.fits limit store)
    have hend :=
      (Machine.run_of_yields (M := machine (some limit)) hyields .refl).2
    let answer := routine.answer limit ⟨store, 0⟩
    exact ⟨⟨routine, ⟨store, 0⟩, answer.1, answer.2⟩, rfl, rfl,
      .next h hrequest hend⟩

/-- A call that overflows under the limit 3, and the same call once more. -/
theorem carries_nothing_over_overflow :
    let closure : Closure := ⟨0, [], [.expression selfCall], 0⟩
    let before : Memory := ⟨⟨#[⟨[("f", .function closure)], none⟩], 1, ""⟩, 0⟩
    ∃ after : Memory,
      let overflow : Operation :=
        ⟨.expression 0 selfCall, before, .error (.stackOverflow 3), after⟩
      History 3 [overflow] after.depth ∧ after.depth = 0 ∧
        ∃ again : Operation, again.routine = overflow.routine ∧
        again.before = before ∧
          History 3 [overflow, again] again.after.depth := by
  intro closure before
  have hlookup : before.store.lookup 0 "f" = some (.function closure) := by
    rw [Store.lookup]
    rfl
  obtain ⟨after, hafter⟩ : ∃ after, Expr.eval 3 3 0 selfCall before.store =
      .error (.stackOverflow 3) after :=
        eval_selfCall rfl rfl rfl hlookup hlookup
  have hrequest : (Routine.expression 0 selfCall).IsRequest := trivial
  have hyields := yields_answer (hrequest.fits 3 before.store)
  have hend := (Machine.run_of_yields (M := machine (some 3)) hyields .refl).2
  have hanswer : (Routine.answer 3 before (.expression 0 selfCall)).1 =
      .error (.stackOverflow 3) := EvalM.result_of_error hafter
  rw [hanswer] at hend
  let overflow : Operation :=
    ⟨.expression 0 selfCall, before, .error (.stackOverflow 3),
      (Routine.answer 3 before (.expression 0 selfCall)).2⟩
  have hhistory : History 3 ([] ++ [overflow]) overflow.after.depth :=
    .next .fresh hrequest hend
  obtain ⟨hdepth, -, hagain⟩ := carries_nothing_over hhistory
  exact ⟨overflow.after, hhistory, hdepth,
    hagain (.expression 0 selfCall) before.store hrequest⟩

end Eval

end Scriptlet
