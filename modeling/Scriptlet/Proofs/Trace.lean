/-
Runs of a machine together with the answers that are given in them.  An answer
is given whenever a routine comes to its end and the frame that waits for it
goes on, so that each call that returns is seen exactly once.
-/
import Scriptlet.Proofs.Machine

namespace Scriptlet

namespace Machine

variable (M : Machine)

/-- A routine and an answer that it gave. -/
abbrev Given := (routine : M.Routine) × M.Answer routine

variable {M}

/-- The answer that goes to a waiting frame in the next step, if one does. -/
def State.handed : M.State → Option M.Given
  | ⟨routine, .done a, _, _⟩ => some ⟨routine, a⟩
  | _ => none

variable (M)

/-- Steps in which the routines of `base` stay active, with the answers that are
given in them, the earliest first. -/
inductive Passes (base : List M.Routine) :
    M.State → List M.Given → M.State → Prop
  | refl (state : M.State) : Passes base state [] state
  | head {state next last : M.State} {answers : List M.Given}
      (hactive : base <:+ state.active) (hstep : M.step state = some next)
      (hrest : Passes base next answers last) :
      Passes base state (state.handed.toList ++ answers) last

end Machine

namespace Code

variable {Routine : Type} {Answer : Routine → Type} {Memory : Type}

/-- A run of code to its result, with the answers of the routines called in
it. -/
inductive Traces
    (body : (routine : Routine) → Code Answer Memory (Answer routine)) :
    {α : Type} → Code Answer Memory α → Memory →
      List ((routine : Routine) × Answer routine) →
    α → Memory → Prop
  | done {α : Type} {a : α} {memory : Memory} :
      Traces body (.done a) memory [] a memory
  | act {α : Type} {change : Memory → Memory}
      {next : Memory → Code Answer Memory α} {memory memory' : Memory}
      {answers : List ((routine : Routine) × Answer routine)} {a : α}
      (h : Traces body (next memory) (change memory) answers a memory') :
      Traces body (.act change next) memory answers a memory'
  | call {α : Type} {routine : Routine}
      {next : Answer routine → Code Answer Memory α} {answer : Answer routine}
      {memory between memory' : Memory}
      {inside answers : List ((routine : Routine) × Answer routine)} {a : α}
      (hbody : Traces body (body routine) memory inside answer between)
      (h : Traces body (next answer) between answers a memory') :
      Traces body (.call routine next) memory
        (inside ++ ⟨routine, answer⟩ :: answers) a memory'

theorem Yields.exists_traces
    {body : (routine : Routine) → Code Answer Memory (Answer routine)}
    {ok : List Routine → Memory → Prop} {active : List Routine} {α : Type}
    {code : Code Answer Memory α} {memory memory' : Memory} {a : α}
    (h : Yields body ok active code memory a memory') :
    ∃ answers, Traces body code memory answers a memory' := by
  induction h with
  | done _ => exact ⟨[], .done⟩
  | act _ _ ih =>
      obtain ⟨answers, htraces⟩ := ih
      exact ⟨answers, .act htraces⟩
  | @call _ _ routine _ answer _ _ _ _ _ _ _ ihbody ih =>
      obtain ⟨inside, hinside⟩ := ihbody
      obtain ⟨answers, htraces⟩ := ih
      exact ⟨inside ++ ⟨routine, answer⟩ :: answers, .call hinside htraces⟩

end Code

namespace Machine

variable {M : Machine}

theorem Passes.trans {base : List M.Routine} {first second last : M.State}
    {answers answers' : List M.Given} (h : M.Passes base first answers second)
    (h' : M.Passes base second answers' last) :
    M.Passes base first (answers ++ answers') last := by
  induction h with
  | refl _ => exact h'
  | head hactive hstep _ ih =>
      rw [List.append_assoc]
      exact .head hactive hstep (ih h')

/-- The machine gives the answers of the run, whatever waits for the result. -/
theorem passes_of_traces {α : Type} {code : Code M.Answer M.Memory α}
    {memory memory' : M.Memory} {answers : List M.Given} {a : α}
    (h : Code.Traces M.body code memory answers a memory') {routine : M.Routine}
    (k : α → Code M.Answer M.Memory (M.Answer routine))
    (callers : M.Callers routine) {base : List M.Routine}
    (hbase : base <:+ routine :: callers.routines) :
    M.Passes base ⟨routine, code.bind k, callers, memory⟩ answers
      ⟨routine, k a, callers, memory'⟩ := by
  induction h generalizing routine with
  | done => exact .refl _
  | act _ ih => exact .head hbase rfl (ih k callers hbase)
  | @call _ called next answer _ _ _ _ _ _ _ _ ihbody ih =>
      let resume := fun answer => (next answer).bind k
      have hdeeper : base <:+ called :: routine :: callers.routines :=
        hbase.trans (List.suffix_cons called _)
      have hinside := ihbody Code.done (.frame routine resume callers) hdeeper
      rw [Code.bind_done] at hinside
      exact .head hbase rfl
        (hinside.trans (.head hdeeper rfl (ih k callers hbase)))

theorem passes_to_answer {state : M.State} {answers : List M.Given}
    {answer : M.Answer state.routine} {memory' : M.Memory}
    (h : Code.Traces M.body state.code state.memory answers answer memory') :
    M.Passes state.active state answers
      ⟨state.routine, .done answer, state.callers, memory'⟩ := by
  have hpasses :=
    passes_of_traces h Code.done state.callers (List.suffix_refl state.active)
  rw [Code.bind_done] at hpasses
  exact hpasses

/-- A routine that is active gives its answer, if the run comes to an end. -/
theorem exists_traces_of_reaches {state last : M.State}
    (h : M.Reaches state last) (hlast : M.step last = none) :
    ∃ answers answer memory',
      Code.Traces M.body state.code state.memory answers answer memory' := by
  obtain ⟨steps, hsteps⟩ := exists_endsIn h hlast
  obtain ⟨answer, memory', -, -, hyields, -⟩ := hsteps.exists_yields
  obtain ⟨answers, htraces⟩ := hyields.exists_traces
  exact ⟨answers, answer, memory', htraces⟩

end Machine

end Scriptlet
