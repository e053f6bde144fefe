/-
Machines with a stack of calls.  A routine is a piece of code that may change a
memory and call routines, itself among them, without any bound on how often.
The machine runs one step at a time and has a frame for every routine that waits
for an answer, so that its runs can be endless and the routines that are active
at once can be counted.

A run to the end can be put together from the runs of the routines called in it:
that is what `Code.Yields` says, with a condition on the active routines and the
memory that holds all along the way.
-/
import Mathlib.Logic.Relation

namespace Scriptlet

/-- What is still to be done: end with an answer, change the memory and go on,
or call a routine and go on with its answer. -/
inductive Code {Routine : Type} (Answer : Routine → Type) (Memory α : Type) :
    Type
  | done (a : α)
  | act (change : Memory → Memory) (next : Memory → Code Answer Memory α)
  | call (routine : Routine) (next : Answer routine → Code Answer Memory α)

namespace Code

variable {Routine : Type} {Answer : Routine → Type} {Memory α β : Type}

def bind :
    Code Answer Memory α → (α → Code Answer Memory β) → Code Answer Memory β
  | done a, k => k a
  | act change next, k => act change fun memory => (next memory).bind k
  | call routine next, k => call routine fun answer => (next answer).bind k

instance : Monad (Code Answer Memory) where
  pure := done
  bind := bind

/-- Changes the memory and gives a result. -/
def perform (action : Memory → α × Memory) : Code Answer Memory α :=
  act (fun memory => (action memory).2) fun memory => done (action memory).1

/-- Calls a routine for its answer. -/
def invoke (routine : Routine) : Code Answer Memory (Answer routine) :=
  call routine done

theorem bind_done (code : Code Answer Memory α) : code.bind done = code := by
  induction code with
  | done a => rfl
  | act change next ih =>
      rw [bind]
      exact congrArg (act change) (funext ih)
  | call routine next ih =>
      rw [bind]
      exact congrArg (call routine) (funext ih)

end Code

/-- Routines and the memory they share. -/
structure Machine where
  Memory : Type
  Routine : Type
  Answer : Routine → Type
  body : (routine : Routine) → Code Answer Memory (Answer routine)

namespace Machine

variable (M : Machine)

/-- The frames of the routines that wait, the innermost first. -/
inductive Callers : M.Routine → Type
  | none {routine : M.Routine} : Callers routine
  | frame {routine : M.Routine} (caller : M.Routine)
      (resume : M.Answer routine → Code M.Answer M.Memory (M.Answer caller))
      (callers : Callers caller) : Callers routine

structure State where
  routine : M.Routine
  code : Code M.Answer M.Memory (M.Answer routine)
  callers : M.Callers routine
  memory : M.Memory

variable {M}

def Callers.routines {routine : M.Routine} : M.Callers routine → List M.Routine
  | .none => []
  | .frame caller _ callers => caller :: callers.routines

/-- The routines that have been called and have not given an answer yet. -/
def State.active (state : M.State) : List M.Routine :=
  state.routine :: state.callers.routines

variable (M)

/-- One step; there is none once the routine called first has given its
answer. -/
def step : M.State → Option M.State
  | ⟨_, .done _, .none, _⟩ => none
  | ⟨_, .done a, .frame caller resume callers, memory⟩ =>
      some ⟨caller, resume a, callers, memory⟩
  | ⟨routine, .act change next, callers, memory⟩ =>
      some ⟨routine, next memory, callers, change memory⟩
  | ⟨routine, .call called next, callers, memory⟩ =>
      some ⟨called, M.body called, .frame routine next callers, memory⟩

/-- Any number of steps. -/
def Reaches : M.State → M.State → Prop :=
  Relation.ReflTransGen fun state state' => M.step state = some state'

/-- A routine is called from outside. -/
def initial (routine : M.Routine) (memory : M.Memory) : M.State :=
  ⟨routine, M.body routine, .none, memory⟩

/-- The routine called from outside has given its answer. -/
def final (routine : M.Routine) (answer : M.Answer routine)
    (memory : M.Memory) : M.State :=
  ⟨routine, .done answer, .none, memory⟩

/-- The run comes to an end. -/
def Halts (routine : M.Routine) (memory : M.Memory) : Prop :=
  ∃ answer memory',
    M.Reaches (M.initial routine memory) (M.final routine answer memory')

/-- The active routine gives its answer, and until then it stays active. -/
def Returns (state : M.State) (answer : M.Answer state.routine)
    (memory : M.Memory) : Prop :=
  Relation.ReflTransGen
    (fun state' next => state.active <:+ state'.active ∧
      M.step state' = some next)
    state ⟨state.routine, .done answer, state.callers, memory⟩

end Machine

namespace Code

variable {Routine : Type} {Answer : Routine → Type} {Memory : Type}

/-- A run of code to its result, with the given code for the routines, while
`ok` holds of the active routines and the memory all the time. -/
inductive Yields
    (body : (routine : Routine) → Code Answer Memory (Answer routine))
    (ok : List Routine → Memory → Prop) :
    {α : Type} → List Routine → Code Answer Memory α →
    Memory → α → Memory → Prop
  | done {α : Type} {active : List Routine} {a : α} {memory : Memory}
      (hok : ok active memory) :
      Yields body ok active (.done a) memory a memory
  | act {α : Type} {active : List Routine} {change : Memory → Memory}
      {next : Memory → Code Answer Memory α} {memory memory' : Memory} {a : α}
      (hok : ok active memory)
      (h : Yields body ok active (next memory) (change memory) a memory') :
      Yields body ok active (.act change next) memory a memory'
  | call {α : Type} {active : List Routine} {routine : Routine}
      {next : Answer routine → Code Answer Memory α} {answer : Answer routine}
      {memory between memory' : Memory} {a : α} (hok : ok active memory)
      (hbody : Yields body ok (routine :: active) (body routine) memory
        answer between)
      (h : Yields body ok active (next answer) between a memory') :
      Yields body ok active (.call routine next) memory a memory'

namespace Yields

variable {body : (routine : Routine) → Code Answer Memory (Answer routine)}
  {ok : List Routine → Memory → Prop} {active : List Routine} {α β : Type}
  {code : Code Answer Memory α} {memory between memory' : Memory}
    {a : α} {b : β}

theorem bind {k : α → Code Answer Memory β}
    (h : Yields body ok active code memory a between)
    (hk : Yields body ok active (k a) between b memory') :
    Yields body ok active (code >>= k) memory b memory' := by
  induction h with
  | done hok => exact hk
  | act hok _ ih => exact .act hok (ih hk)
  | call hok hbody _ _ ih => exact .call hok hbody (ih hk)

theorem perform {action : Memory → α × Memory} (hok : ok active memory)
    (haction : action memory = (a, memory')) (hok' : ok active memory') :
    Yields body ok active (Code.perform action) memory a memory' := by
  refine .act hok ?_
  rw [haction]
  exact .done hok'

theorem ok_end (h : Yields body ok active code memory a memory') :
    ok active memory' := by
  induction h with
  | done hok => exact hok
  | act _ _ ih => exact ih
  | call _ _ _ _ ih => exact ih

theorem mono {ok' : List Routine → Memory → Prop}
    (h : Yields body ok active code memory a memory')
    (hle : ∀ active memory, ok active memory → ok' active memory) :
    Yields body ok' active code memory a memory' := by
  induction h with
  | done hok => exact .done (hle _ _ hok)
  | act hok _ ih => exact .act (hle _ _ hok) ih
  | call hok _ _ ihbody ih => exact .call (hle _ _ hok) ihbody ih

/-- Whatever is called on the way, the routines that were active stay so. -/
theorem within (h : Yields body ok active code memory a memory') :
    Yields body (fun active' _ => active <:+ active') active code memory
      a memory' := by
  induction h with
  | done _ => exact .done (List.suffix_refl _)
  | act _ _ ih => exact .act (List.suffix_refl _) ih
  | @call _ active routine _ _ _ _ _ _ _ _ _ ihbody ih =>
      refine .call (List.suffix_refl _) (ihbody.mono ?_) ih
      intro active' _ hsuffix
      exact (List.suffix_cons routine active).trans hsuffix

end Yields

end Code

namespace Machine

variable {M : Machine}

/-- The machine takes the run step by step, whatever waits for the result. -/
theorem reaches_of_yields {ok : List M.Routine → M.Memory → Prop}
    {active : List M.Routine} {α : Type} {code : Code M.Answer M.Memory α}
    {memory memory' : M.Memory} {a : α}
    (h : Code.Yields M.body ok active code memory a memory')
    {routine : M.Routine} (k : α → Code M.Answer M.Memory (M.Answer routine))
    (callers : M.Callers routine)
    (hactive : active = routine :: callers.routines) :
    Relation.ReflTransGen
      (fun state state' : M.State => ok state.active state.memory ∧
        M.step state = some state')
      ⟨routine, code.bind k, callers, memory⟩
      ⟨routine, k a, callers, memory'⟩ := by
  induction h generalizing routine with
  | done hok => exact .refl
  | act hok _ ih =>
      subst hactive
      exact .head ⟨hok, rfl⟩ (ih k callers rfl)
  | @call _ _ called next answer _ _ _ _ hok hbody _ ihbody ih =>
      subst hactive
      let resume := fun answer => (next answer).bind k
      have hinside := ihbody Code.done (.frame routine resume callers) rfl
      rw [Code.bind_done] at hinside
      have hback := hbody.ok_end
      exact .head ⟨hok, rfl⟩
        (hinside.trans (.head ⟨hback, rfl⟩ (ih k callers rfl)))

theorem returns_of_yields {ok : List M.Routine → M.Memory → Prop}
    {state : M.State} {answer : M.Answer state.routine} {memory' : M.Memory}
    (h : Code.Yields M.body ok state.active state.code state.memory
      answer memory') :
    M.Returns state answer memory' := by
  have hsteps := reaches_of_yields h.within Code.done state.callers rfl
  rw [Code.bind_done] at hsteps
  exact hsteps

theorem step_final (routine : M.Routine) (answer : M.Answer routine)
    (memory : M.Memory) :
    M.step (M.final routine answer memory) = none := rfl

/-- A step leads to one state only, so whatever is reached lies on the way to
the end. -/
theorem reaches_of_reaches_end {P : M.State → Prop} {start last state : M.State}
    (h : Relation.ReflTransGen (fun s t => P s ∧ M.step s = some t) start last)
    (hP : P last) (hlast : M.step last = none)
    (hstate : M.Reaches start state) : P state ∧ M.Reaches state last := by
  induction h using Relation.ReflTransGen.head_induction_on with
  | refl =>
      rcases hstate.cases_head with rfl | ⟨next, hnext, -⟩
      · exact ⟨hP, .refl⟩
      · rw [hlast] at hnext
        cases hnext
  | head hfirst hrest ih =>
      obtain ⟨hPfirst, hstep⟩ := hfirst
      rcases hstate.cases_head with rfl | ⟨next, hnext, hafter⟩
      · refine ⟨hPfirst, .head hstep ?_⟩
        exact Relation.ReflTransGen.mono (fun _ _ hboth => hboth.2) _ _ hrest
      · rw [hstep] at hnext
        cases hnext
        exact ih hafter

/-- All that the machine goes through on the way to an answer. -/
theorem run_of_yields {ok : List M.Routine → M.Memory → Prop}
    {routine : M.Routine} {answer : M.Answer routine}
    {memory memory' : M.Memory}
    (h : Code.Yields M.body ok [routine] (M.body routine) memory answer memory')
    {state : M.State} (hstate : M.Reaches (M.initial routine memory) state) :
    ok state.active state.memory ∧
      M.Reaches state (M.final routine answer memory') := by
  have hsteps := reaches_of_yields h Code.done .none rfl
  rw [Code.bind_done] at hsteps
  exact reaches_of_reaches_end (P := fun state => ok state.active state.memory)
    hsteps h.ok_end (step_final routine answer memory') hstate

/-- The machine takes `steps` steps and then stops. -/
def EndsIn (M : Machine) : Nat → M.State → M.State → Prop
  | 0, state, last => state = last ∧ M.step last = none
  | steps + 1, state, last =>
      ∃ next, M.step state = some next ∧ EndsIn M steps next last

theorem exists_endsIn {state last : M.State} (h : M.Reaches state last)
    (hlast : M.step last = none) : ∃ steps, M.EndsIn steps state last := by
  induction h using Relation.ReflTransGen.head_induction_on with
  | refl => exact ⟨0, rfl, hlast⟩
  | head hfirst _ ih =>
      obtain ⟨steps, hsteps⟩ := ih
      exact ⟨steps + 1, _, hfirst, hsteps⟩

theorem EndsIn.next {steps : Nat} {state next last : M.State}
    (h : M.EndsIn steps state last) (hnext : M.step state = some next) :
    ∃ fewer < steps, M.EndsIn fewer next last := by
  cases steps with
  | zero =>
      obtain ⟨rfl, hlast⟩ := h
      rw [hlast] at hnext
      cases hnext
  | succ steps =>
      obtain ⟨next', hnext', hrest⟩ := h
      rw [hnext] at hnext'
      cases hnext'
      exact ⟨steps, Nat.lt_succ_self steps, hrest⟩

/-- A run that comes to an end gets to the result of the code it starts with. -/
theorem EndsIn.exists_yields {steps : Nat} {state last : M.State}
    (h : M.EndsIn steps state last) : ∃ answer memory', ∃ fewer ≤ steps,
      Code.Yields M.body (fun _ _ => True) state.active state.code state.memory
        answer memory' ∧
      M.EndsIn fewer ⟨state.routine, .done answer, state.callers, memory'⟩
        last := by
  induction steps using Nat.strongRecOn generalizing state with
  | ind steps ih =>
      obtain ⟨routine, code, callers, memory⟩ := state
      cases code with
      | done a => exact ⟨a, memory, steps, Nat.le_refl _, .done trivial, h⟩
      | act change next =>
          obtain ⟨fewer, hfewer, hrest⟩ := h.next rfl
          obtain ⟨a, memory', least, hleast, hyields, hends⟩ :=
            ih fewer hfewer hrest
          exact ⟨a, memory', least, by omega, .act trivial hyields, hends⟩
      | call called next =>
          obtain ⟨fewer, hfewer, hinside⟩ := h.next rfl
          obtain ⟨answer, between, least, hleast, hbody, hreturn⟩ :=
            ih fewer hfewer hinside
          -- The answer goes back to the frame that waits for it.
          obtain ⟨after, hafter, hrest⟩ := hreturn.next rfl
          obtain ⟨a, memory', final, hfinal, hyields, hends⟩ :=
            ih after (by omega) hrest
          exact ⟨a, memory', final, by
            omega, .call trivial hbody hyields, hends⟩

/-- A routine comes to an end with the answer that its code yields, if at
all. -/
theorem exists_yields_of_halts {routine : M.Routine} {memory : M.Memory}
    (h : M.Halts routine memory) : ∃ answer memory',
      Code.Yields M.body (fun _ _ => True) [routine] (M.body routine) memory
        answer memory' := by
  obtain ⟨answer, memory', hreaches⟩ := h
  obtain ⟨steps, hsteps⟩ :=
    exists_endsIn hreaches (step_final routine answer memory')
  obtain ⟨answer', between, _, -, hyields, -⟩ := hsteps.exists_yields
  exact ⟨answer', between, hyields⟩

theorem halts_of_yields {ok : List M.Routine → M.Memory → Prop}
    {routine : M.Routine} {answer : M.Answer routine}
    {memory memory' : M.Memory}
    (h : Code.Yields M.body ok [routine] (M.body routine) memory
      answer memory') :
    M.Halts routine memory :=
  ⟨answer, memory', (run_of_yields h .refl).2⟩

/-- Nothing comes after an answer. -/
theorem eq_of_reaches_final {routine : M.Routine}
    {answer answer' : M.Answer routine} {memory memory' : M.Memory}
    (h :
      M.Reaches (M.final routine answer memory)
        (M.final routine answer' memory')) :
    answer = answer' ∧ memory = memory' := by
  rcases h.cases_head with heq | ⟨next, hnext, -⟩
  · cases heq
    exact ⟨rfl, rfl⟩
  · rw [step_final] at hnext
    cases hnext

/-- There is only one answer. -/
theorem answer_unique {ok ok' : List M.Routine → M.Memory → Prop}
    {routine : M.Routine} {answer answer' : M.Answer routine}
    {memory left right : M.Memory}
    (h : Code.Yields M.body ok [routine] (M.body routine) memory answer left)
    (h' : Code.Yields M.body ok' [routine] (M.body routine) memory
      answer' right) :
    answer = answer' :=
  (eq_of_reaches_final (run_of_yields h' (run_of_yields h .refl).2).2).1

end Machine

end Scriptlet
