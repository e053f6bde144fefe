/-
The count of the expressions that are being run.  One routine adds one to it and
takes one off again; between the two, other routines are called and come back
with the count that they were called with.  So nothing is added at the limit,
and nothing is taken off at zero, in any state that the machine comes to.
-/
import Scriptlet.Proofs.Eval.Machine

namespace Scriptlet

namespace Eval

namespace Memory

/-- One more expression is being run. -/
def count (memory : Memory) : Memory :=
  { memory with depth := memory.depth + 1 }

/-- One expression less is being run. -/
def uncount (memory : Memory) : Memory :=
  { memory with depth := memory.depth - 1 }

/-- Where the depth is as given, the change does not take it past the limit or
below zero.  Only the two changes above add to the depth or take from it; others
may set it to zero. -/
structure Allows (limit depth : Nat) (change : Memory → Memory) : Prop where
  count : change = Memory.count → depth < limit
  uncount : change = Memory.uncount → 0 < depth
  other : change ≠ Memory.count → change ≠ Memory.uncount →
    ∀ memory, (change memory).depth = memory.depth ∨ (change memory).depth = 0

/-- Two changes that differ somewhere in the depth are different. -/
theorem ne_of_depth {change change' : Memory → Memory} (memory : Memory)
    (h : (change memory).depth ≠ (change' memory).depth) :
    change ≠ change' := by
  rintro rfl
  exact h rfl

theorem allows_count {limit depth : Nat} (h : depth < limit) :
    Allows limit depth count where
  count := fun _ => h
  uncount := fun heq => absurd heq (ne_of_depth ⟨.empty, 0⟩ (by decide))
  other := fun hcount => absurd rfl hcount

theorem allows_uncount {limit depth : Nat} (h : 0 < depth) :
    Allows limit depth uncount where
  count := fun heq => absurd heq (ne_of_depth ⟨.empty, 0⟩ (by decide))
  uncount := fun _ => h
  other := fun _ huncount => absurd rfl huncount

theorem allows_reset (limit depth : Nat) :
    Allows limit depth fun memory => { memory with depth := 0 } where
  count := fun heq => absurd heq (ne_of_depth ⟨.empty, 0⟩ (by decide))
  uncount := fun heq => absurd heq (ne_of_depth ⟨.empty, 2⟩ (by decide))
  other := fun _ _ _ => Or.inr rfl

theorem allows_of_depth_eq {change : Memory → Memory}
    (h : ∀ memory, (change memory).depth = memory.depth) (limit depth : Nat) :
    Allows limit depth change where
  count := by
    rintro rfl
    exact absurd (h ⟨.empty, 0⟩) (by decide)
  uncount := by
    rintro rfl
    exact absurd (h ⟨.empty, 1⟩) (by decide)
  other := fun _ _ memory => Or.inl (h memory)

end Memory

open Memory (Allows allows_count allows_uncount allows_reset allows_of_depth_eq)

def Routine.IsProgram : Routine → Prop
  | .program .. => True
  | _ => False

variable {α β : Type} {limit : Nat}

/-- From the given depth on, the code keeps the depth within the limit, and it
ends at the depth `base`.  The routines that it calls are taken to leave the
depth as it is. -/
def Keeps (limit base : Nat) : Code Routine.Answer Memory α → Nat → Prop
  | .done _, depth => depth = base
  | .act change next, depth => Allows limit depth change ∧
      ∀ memory : Memory, memory.depth = depth →
        (change memory).depth ≤ limit ∧
        Keeps limit base (next memory) (change memory).depth
  | .call routine next, depth => ¬ routine.IsProgram ∧
      ∀ answer, Keeps limit base (next answer) depth

theorem Keeps.bind {between base depth : Nat}
    {code : Code Routine.Answer Memory α}
    {next : α → Code Routine.Answer Memory β}
    (h : Keeps limit between code depth)
    (hnext : ∀ a, Keeps limit base (next a) between) :
    Keeps limit base (code >>= next) depth := by
  induction code generalizing depth with
  | done a => exact h ▸ hnext a
  | act change rest ih =>
      obtain ⟨hallows, hrest⟩ := h
      refine ⟨hallows, fun memory hmemory => ?_⟩
      obtain ⟨hle, hkeeps⟩ := hrest memory hmemory
      exact ⟨hle, ih memory hkeeps⟩
  | call routine rest ih =>
      obtain ⟨hroutine, hrest⟩ := h
      exact ⟨hroutine, fun answer => ih answer (hrest answer)⟩

/-- The code leaves the depth as it was. -/
def Steady (limit : Nat) (code : Routine.CodeM α) : Prop :=
  ∀ depth ≤ limit, Keeps limit depth code.run depth

namespace Steady

theorem pure (a : α) : Steady limit (pure a) := fun _ _ => rfl

theorem throw (fault : Fault) : Steady limit (throw fault : Routine.CodeM α) :=
  fun _ _ => rfl

theorem direct (run : EvalM α) : Steady limit (Routine.direct run) := by
  intro depth hdepth
  have hsame : ∀ memory, (Routine.ending run memory).2.depth = memory.depth :=
    fun _ => rfl
  refine ⟨allows_of_depth_eq hsame limit depth, fun memory hmemory => ?_⟩
  exact ⟨hmemory ▸ hdepth, hmemory⟩

theorem bind {code : Routine.CodeM α} {next : α → Routine.CodeM β}
    (h : Steady limit code) (hnext : ∀ a, Steady limit (next a)) :
    Steady limit (code >>= next) := by
  intro depth hdepth
  refine (h depth hdepth).bind fun result => ?_
  cases result with
  | ok a => exact hnext a depth hdepth
  | error fault => exact rfl

theorem proceed {code : Routine.CodeM Value}
    {next : Value → Routine.CodeM Value} (h : Steady limit code)
    (hnext : ∀ value, Steady limit (next value)) :
    Steady limit (Routine.proceed code next) := by
  refine h.bind fun value => ?_
  cases value with
  | returning value => exact .pure _
  | _ => exact hnext _

theorem evaluate (scope : ScopeId) (e : Expr) :
    Steady limit (Routine.evaluate scope e) :=
  fun _ _ => ⟨id, fun _ => rfl⟩

theorem runBlock (scope : ScopeId) (body : Block) :
    Steady limit (Routine.runBlock scope body) :=
  fun _ _ => ⟨id, fun _ => rfl⟩

theorem runStatement (scope : ScopeId) (s : Statement) :
    Steady limit (Routine.runStatement scope s) :=
  fun _ _ => ⟨id, fun _ => rfl⟩

theorem applyValue (callee : Value) (arguments : List Value) :
    Steady limit (Routine.applyValue callee arguments) :=
  fun _ _ => ⟨id, fun _ => rfl⟩

theorem ofStatement (scope : ScopeId) (s : Statement) :
    Steady limit (Routine.ofStatement scope s) := by
  cases s with
  | binding name value =>
      refine (evaluate scope value).bind fun value => ?_
      cases value with
      | returning value => exact .pure _
      | _ => exact (direct _).bind fun _ => .pure none
  | returning value =>
      exact ((evaluate scope value).proceed fun _ => .pure _).bind
        fun _ => .pure _
  | expression value => exact (evaluate scope value).bind fun _ => .pure _
  | block body => exact runBlock scope body

theorem ofStatements (scope : ScopeId) (last : Option Value)
    (ss : List Statement) :
    Steady limit (Routine.ofStatements scope last ss) := by
  induction ss generalizing last with
  | nil => exact .pure last
  | cons s ss ih =>
      refine (runStatement scope s).bind fun outcome => ?_
      have hrest := ih outcome
      cases outcome with
      | none => exact hrest
      | some value =>
          cases value with
          | returning value => exact .pure _
          | _ => exact hrest

theorem ofValues (scope : ScopeId) (es : List Expr)
    {next : List Value → Routine.CodeM Value}
    (hnext : ∀ values, Steady limit (next values)) :
    Steady limit (Routine.ofValues scope es next) := by
  induction es generalizing next with
  | nil => exact hnext []
  | cons e es ih =>
      exact (evaluate scope e).proceed fun value => ih fun others =>
        hnext (value :: others)

theorem ofEntries (scope : ScopeId) (table : Table HashKey Value)
    (pairs : List (Expr × Expr)) :
    Steady limit (Routine.ofEntries scope table pairs) := by
  induction pairs generalizing table with
  | nil => exact .pure _
  | cons pair pairs ih =>
      refine (evaluate scope pair.1).proceed fun key => ?_
      refine (direct _).bind fun key => ?_
      exact (evaluate scope pair.2).proceed fun value =>
        ih (table.insert key value)

theorem ofApply (callee : Value) (arguments : List Value) :
    Steady limit (Routine.ofApply callee arguments) := by
  cases callee with
  | function closure =>
      by_cases hlength : arguments.length = closure.parameters.length
      · rw [Routine.ofApply, if_neg (not_not_intro hlength)]
        refine (direct _).bind fun scope => ?_
        exact (runBlock scope closure.body).bind fun _ => .pure _
      · rw [Routine.ofApply, if_pos hlength]
        exact .throw _
  | builtin builtin => exact direct _
  | _ => exact .throw _

theorem ofBranch (scope : ScopeId) (condition : Value) (consequence : Block)
    (alternative : Option Block) :
    Steady limit
      (Routine.ofBranch scope condition consequence alternative) := by
  rw [Routine.ofBranch]
  cases if condition.isTruthy then some consequence else alternative with
  | some body => exact (runBlock scope body).bind fun _ => .pure _
  | none => exact .pure _

theorem ofExpr (scope : ScopeId) (e : Expr) :
    Steady limit (Routine.ofExpr scope e) := by
  cases e with
  | identifier name => exact direct _
  | integer value => exact .pure _
  | boolean value => exact .pure _
  | string value => exact .pure _
  | array elements => exact ofValues scope elements fun _ => .pure _
  | hash pairs => exact ofEntries scope [] pairs
  | unary op operand => exact (evaluate scope operand).proceed fun _ => direct _
  | binary op left right =>
      exact (evaluate scope left).proceed fun _ =>
        (evaluate scope right).proceed fun _ => direct _
  | conditional condition consequence alternative =>
      exact (evaluate scope condition).proceed fun value =>
        ofBranch scope value consequence alternative
  | function parameters body => exact direct _
  | call callee arguments =>
      exact (evaluate scope callee).proceed fun value =>
        ofValues scope arguments fun values => applyValue value values
  | index collection position =>
      exact (evaluate scope collection).proceed fun _ =>
        (evaluate scope position).proceed fun _ => direct _

/-- What is added is taken off again, and only below the limit is anything
added. -/
theorem ofCounted (scope : ScopeId) (e : Expr) :
    Steady limit (Routine.ofCounted (some limit) scope e) := by
  intro depth hdepth
  refine ⟨allows_of_depth_eq (fun _ => rfl) limit depth, ?_⟩
  rintro ⟨store, depth⟩ rfl
  refine ⟨hdepth, ?_⟩
  by_cases hfull : limit ≤ depth
  · have hrefusal : Routine.refusal (some limit) depth =
        some (.stackOverflow limit) := if_pos hfull
    simp only [hrefusal]
    exact rfl
  · have hrefusal : Routine.refusal (some limit) depth = none := if_neg hfull
    have hbelow : depth < limit := Nat.lt_of_not_le hfull
    simp only [hrefusal]
    refine ⟨allows_count hbelow, ?_⟩
    rintro ⟨_, depth⟩ rfl
    refine ⟨hbelow, id, fun answer => ⟨allows_uncount (Nat.succ_pos depth), ?_⟩⟩
    rintro ⟨_, _⟩ rfl
    exact ⟨hdepth, rfl⟩

end Steady

theorem steady_body (routine : Routine) (hroutine : ¬ routine.IsProgram)
    (depth : Nat) (hdepth : depth ≤ limit) :
    Keeps limit depth (Routine.body (some limit) routine) depth := by
  cases routine with
  | program scope source => exact absurd trivial hroutine
  | block scope body => exact Steady.ofStatements scope none body depth hdepth
  | statement scope s => exact Steady.ofStatement scope s depth hdepth
  | expression scope e => exact Steady.ofCounted scope e depth hdepth
  | inner scope e => exact Steady.ofExpr scope e depth hdepth
  | apply callee arguments => exact Steady.ofApply callee arguments depth hdepth

/-- At the depth zero, a program may be run too. -/
theorem keeps_body_zero (limit : Nat) (routine : Routine) :
    Keeps limit 0 (Routine.body (some limit) routine) 0 := by
  by_cases hroutine : routine.IsProgram
  · cases routine with
    | program scope source =>
        refine ⟨allows_reset limit 0,
          fun _ _ => ⟨Nat.zero_le limit, id, fun answer => ?_⟩⟩
        cases answer with
        | ok outcome => exact rfl
        | error fault => exact rfl
    | _ => exact absurd hroutine id
  · exact steady_body routine hroutine 0 (Nat.zero_le limit)

/-- Every routine that waits goes on from the depth that the one it called ends
with. -/
def Resumes (limit : Nat) : {routine : Routine} → Nat →
    (machine (some limit)).Callers routine → Prop
  | _, _, .none => True
  | _, depth, .frame _ resume callers => ∃ base,
      (∀ answer, Keeps limit base (resume answer) depth) ∧
      Resumes limit base callers

/-- The depth is within the limit, and stays so whatever happens next. -/
structure Balanced (limit : Nat) (state : (machine (some limit)).State) :
    Prop where
  depth_le : state.memory.depth ≤ limit
  keeps :
    ∃ base, Keeps limit base state.code state.memory.depth ∧
    Resumes limit base state.callers

theorem Balanced.step {state next : (machine (some limit)).State}
    (h : Balanced limit state)
    (hstep : (machine (some limit)).step state = some next) :
    Balanced limit next := by
  obtain ⟨routine, code, callers, memory⟩ := state
  obtain ⟨hle, base, hkeeps, hresumes⟩ := h
  cases code with
  | done a =>
      cases callers with
      | none => cases hstep
      | frame caller resume callers =>
          cases hstep
          obtain ⟨outer, hresume, houter⟩ := hresumes
          exact ⟨hle, outer, hkeeps ▸ hresume a, houter⟩
  | act change rest =>
      cases hstep
      obtain ⟨hle', hrest⟩ := hkeeps.2 memory rfl
      exact ⟨hle', base, hrest, hresumes⟩
  | call called rest =>
      cases hstep
      obtain ⟨hcalled, hrest⟩ := hkeeps
      exact ⟨hle, memory.depth, steady_body called hcalled memory.depth hle,
        base, hrest, hresumes⟩

/-- A run from the depth zero stays balanced. -/
theorem balanced_of_reaches {routine : Routine} {store : Store}
    {state : (machine (some limit)).State}
    (h : (machine (some limit)).Reaches
      ((machine (some limit)).initial routine ⟨store, 0⟩) state) :
      Balanced limit state := by
  induction h with
  | refl => exact ⟨Nat.zero_le limit, 0, keeps_body_zero limit routine, trivial⟩
  | tail _ hstep ih => exact ih.step hstep

end Eval

end Scriptlet
