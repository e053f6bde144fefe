/-
Nothing is taken out of range: no slice of a source text, no line of a token, no
argument of a built-in function, and not the count of the expressions that are
being run.
-/
import Scriptlet.Proofs.Eval.Counter
import Scriptlet.Proofs.Token.Slices
import Scriptlet.Script

namespace Scriptlet

namespace Builtin

/-- The arguments from a position on, unless it is past their end. -/
def argumentsFrom? (arguments : List Value) (start : Nat) :
    Option (List Value) :=
  if start ≤ arguments.length then some (arguments.drop start) else none

/-- What a built-in function does with its arguments, looked up by their
positions. -/
def run? (function : Builtin) (arguments : List Value) : Option (EvalM Value) :=
  match function with
  | len => do
      let argument ← arguments[0]?
      return EvalM.ofExcept (lenOf argument)
  | push => do
      let argument ← arguments[0]?
      match elements push argument with
      | .error fault => return throw fault
      | .ok elements =>
          -- The room that is made for the elements of the result.
          let _ ← difference? (elements.length + arguments.length) 1
          let values ← argumentsFrom? arguments 1
          return pure (.array (elements ++ values))
  | first => do
      let argument ← arguments[0]?
      return EvalM.ofExcept do
        return (← elements first argument).head?.getD .null
  | last => do
      let argument ← arguments[0]?
      return EvalM.ofExcept do
        return (← elements last argument).getLast?.getD .null
  | rest => do
      let argument ← arguments[0]?
      return EvalM.ofExcept (restOf argument)
  | puts => some do
      printAll arguments
      return .null

/-- Calls a built-in function, if it accepts so many arguments. -/
def call? (function : Builtin) (arguments : List Value) :
    Option (EvalM Value) :=
  if function.arity.accepts arguments.length then run? function arguments
  else some (throw (.argumentCount arguments.length function.arity))

theorem run?_push (argument value : Value) (values : List Value) :
    run? push (argument :: value :: values) =
      some (push.call (argument :: value :: values)) := by
  have hroom (elements : List Value) : difference?
      (elements.length + (argument :: value :: values).length) 1 =
        some (elements.length + (value :: values).length) := difference?_add _ 1
  cases helements : elements push argument with
  | error fault =>
      simp only [run?, call, List.getElem?_cons_zero, Option.bind_eq_bind,
        Option.bind_some, helements]
      rfl
  | ok elements =>
      simp only [run?, call, List.getElem?_cons_zero, Option.bind_eq_bind,
        Option.bind_some, helements, hroom]
      rfl

/-- With as many arguments as it accepts, a function finds all that it looks
up. -/
theorem run?_eq {function : Builtin} {arguments : List Value}
    (h : function.arity.accepts arguments.length) :
    run? function arguments = some (function.call arguments) := by
  have hone : (Arity.exactly 1).accepts arguments.length → ∃ argument,
      arguments = [argument] :=
    fun hlength => List.length_eq_one_iff.1 (beq_iff_eq.1 hlength)
  cases function with
  | len =>
      obtain ⟨argument, rfl⟩ := hone h
      rfl
  | push =>
      match arguments with
      | argument :: value :: values => exact run?_push argument value values
      | [_] | [] => cases h
  | first =>
      obtain ⟨argument, rfl⟩ := hone h
      rfl
  | last =>
      obtain ⟨argument, rfl⟩ := hone h
      rfl
  | rest =>
      obtain ⟨argument, rfl⟩ := hone h
      rfl
  | puts => rfl

theorem call_of_not_accepts {function : Builtin} {arguments : List Value}
    (h : function.arity.accepts arguments.length = false) :
    function.call arguments =
      throw (.argumentCount arguments.length function.arity) := by
  unfold call
  split
  case h_7 => rfl
  all_goals cases h

theorem call?_eq (function : Builtin) (arguments : List Value) :
    call? function arguments = some (function.call arguments) := by
  cases h : function.arity.accepts arguments.length with
  | true => rw [call?, if_pos h, run?_eq h]
  | false => rw [call?, h, if_neg Bool.false_ne_true, call_of_not_accepts h]

end Builtin

open Eval (machine Memory Routine)

/-- A script that can be read is run by the machine, and what the machine comes
to is what the script comes to. -/
theorem Script.reaches_final (limit : Nat) {source : String}
    (h : (Parsed.ofSource source).diagnostics = []) :
    let routine : Routine :=
      .program (Session.start limit).scope (Parsed.ofSource source).program
    ∃ (value : Value) (store : Store), Script.run limit source =
      ⟨value.toResult, store.output⟩ ∧
      (machine (some limit)).Reaches
        ((machine (some limit)).initial routine
          ⟨(Session.start limit).store, 0⟩)
        ((machine (some limit)).final routine value ⟨store, 0⟩) := by
  intro routine
  let start := (Session.start limit).store
  have hyields :=
    Eval.yields_answer
      (Eval.fits_zero start rfl : Eval.Fits (some limit) [routine] _)
  have hend :=
    (Machine.run_of_yields (M := machine (some limit)) hyields .refl).2
  refine ⟨_, _, ?_, hend⟩
  rw [Script.run, h]
  rfl

/-- Scanning by slices and counted lines, calling built-in functions by the
positions of their arguments and counting the expressions that are being run
never goes out of range, for any source text, any arguments and any limit.
Arguments that a function does not accept are not looked up. -/
theorem stays_in_range (limit : Nat) :
    (∀ source, TokenStream.scan? source = some (.ofSource source)) ∧
      (∀ (function : Builtin) (arguments : List Value),
        function.call? arguments = some (function.call arguments) ∧
          (function.arity.accepts arguments.length = false → ∀ store,
            function.call arguments store =
              .error (.argumentCount arguments.length function.arity) store)) ∧
      (∀ source, (Parsed.ofSource source).diagnostics = [] →
        let routine : Routine :=
          .program (Session.start limit).scope (Parsed.ofSource source).program
        ∃ (value : Value) (store : Store),
          Script.run limit source = ⟨value.toResult, store.output⟩ ∧
            (machine (some limit)).Reaches
              ((machine (some limit)).initial routine
                ⟨(Session.start limit).store, 0⟩)
              ((machine (some limit)).final routine value ⟨store, 0⟩)) ∧
      ∀ (routine : Routine) (store : Store)
          (state : (machine (some limit)).State),
        (machine (some limit)).Reaches
            ((machine (some limit)).initial routine ⟨store, 0⟩) state →
          state.memory.depth ≤ limit ∧ ∀ change next,
            state.code = .act change next →
            Memory.Allows limit state.memory.depth change := by
  refine ⟨TokenStream.scan?_eq, fun function arguments =>
    ⟨function.call?_eq arguments, ?_⟩,
    fun source hquiet => Script.reaches_final limit hquiet,
    fun routine store state hstate => ?_⟩
  · intro hrejected store
    rw [Builtin.call_of_not_accepts hrejected]
    rfl
  · have hbalanced := Eval.balanced_of_reaches hstate
    refine ⟨hbalanced.depth_le, fun change next hcode => ?_⟩
    obtain ⟨base, hkeeps, -⟩ := hbalanced.keeps
    rw [hcode] at hkeeps
    exact hkeeps.1

/-- A string that is not closed, `push` with one argument, a script, and the
expression `5` at the point where it is taken off the count. -/
theorem stays_in_range_five :
    TokenStream.scan? "\"\né" = some ⟨[⟨.illegal, Piece.unterminated, 1⟩], 2⟩ ∧
      Builtin.push.arity.accepts 1 = false ∧
      Builtin.push.call [.null] .empty =
        .error (.argumentCount 1 (.atLeast 2)) .empty ∧
      (Parsed.ofSource "5").diagnostics = [] ∧
      (∃ (value : Value) (store : Store),
        Script.run 1 "5" = ⟨value.toResult, store.output⟩) ∧
      ∃ state next, (machine (some 1)).Reaches
          ((machine (some 1)).initial (.expression 0 (.integer 5)) ⟨.empty, 0⟩)
            state ∧
        state.code = .act Memory.uncount next ∧ 0 < state.memory.depth ∧
        state.memory.depth ≤ 1 := by
  obtain ⟨hscan, hcall, hrun, hstate⟩ := stays_in_range 1
  have hread : (Parsed.ofSource "5").diagnostics = [] := by decide +kernel
  obtain ⟨value, store, hvalue, -⟩ := hrun "5" hread
  refine ⟨?_, rfl, (hcall .push [.null]).2 rfl .empty, hread,
    ⟨value, store, hvalue⟩, ?_⟩
  · rw [hscan]
    decide +kernel
  · have hreaches : (machine (some 1)).Reaches
        ((machine (some 1)).initial (.expression 0 (.integer 5)) ⟨.empty, 0⟩)
        ⟨.expression 0 (.integer 5), .act Memory.uncount fun _ =>
          .done (.ok (.integer 5)), .none,
          ⟨.empty, 1⟩⟩ :=
      .head rfl (.head rfl (.head rfl (.head rfl .refl)))
    obtain ⟨hle, hallows⟩ := hstate _ _ _ hreaches
    exact ⟨_, _, hreaches, rfl, (hallows _ _ rfl).uncount rfl, hle⟩

end Scriptlet
