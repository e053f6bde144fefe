/-
The functions of a session, in the order they were made.  Every function is
entered into a ledger when it is made, at the position that its serial number
names, and nothing that is run later changes an entry.  So a serial number
stands for one function wherever that turns up, and equal values have the same
text.
-/
import Scriptlet.Proofs.Eval.Invariant
import Scriptlet.Proofs.Value.Equality

namespace Scriptlet

/-- The functions made so far, each at the position of its serial number. -/
abbrev Ledger := List Closure

namespace Ledger

variable {ledger later : Ledger} {v : Value}

/-- Every function in the value stands in the ledger. -/
def Records (ledger : Ledger) (value : Value) : Prop :=
  ∀ closure, value.Holds closure → ledger[closure.serial]? = some closure

theorem Records.mono (h : ledger.Records v) (hlonger : ledger <+: later) :
    later.Records v := by
  intro closure hclosure
  obtain ⟨others, rfl⟩ := hlonger
  have hentry := h closure hclosure
  rw [List.getElem?_append_left (List.getElem?_eq_some_iff.1 hentry).1, hentry]

theorem records_of_isPlain (h : v.isPlain) : ledger.Records v := by
  intro closure hclosure
  cases hclosure <;> cases h

theorem records_array_iff {elements : List Value} :
    ledger.Records (.array elements) ↔
      ∀ element ∈ elements, ledger.Records element := by
  constructor
  · exact fun h element hmem closure hclosure =>
      h closure (.array hmem hclosure)
  · intro h closure hclosure
    cases hclosure with
    | array hmem hclosure => exact h _ hmem closure hclosure

theorem records_hash_iff {entries : Table HashKey Value} :
    ledger.Records (.hash entries) ↔
      ∀ entry ∈ entries, ledger.Records entry.2 := by
  constructor
  · exact fun h entry hmem closure hclosure => h closure (.hash hmem hclosure)
  · intro h closure hclosure
    cases hclosure with
    | hash hmem hclosure => exact h _ hmem closure hclosure

theorem records_returning_iff :
    ledger.Records (.returning v) ↔ ledger.Records v := by
  constructor
  · exact fun h closure hclosure => h closure (.returning hclosure)
  · intro h closure hclosure
    cases hclosure with
    | returning hclosure => exact h closure hclosure

/-- A new function is entered at the end, where its serial number says. -/
theorem records_function (closure : Closure)
    (h : ledger.length = closure.serial) :
    (ledger ++ [closure]).Records (.function closure) := by
  intro other hother
  cases hother
  rw [← h, List.getElem?_concat_length]

/-- The ledger has every function made so far, and goes on with new ones. -/
def invariant : Invariant where
  Stage := Ledger
  later := (· <+: ·)
  value := Records
  count ledger n := ledger.length = n
  later_refl := List.prefix_refl
  later_trans := List.IsPrefix.trans
  value_later hlonger h := h.mono hlonger
  value_plain _ _ := records_of_isPlain
  value_array := records_array_iff
  value_hash := records_hash_iff
  value_returning := records_returning_iff.1
  value_function parameters body scope hcount :=
    ⟨_, List.prefix_append _ [⟨_, parameters, body, scope⟩],
      by rw [List.length_append, hcount]; rfl, records_function _ hcount⟩

theorem records_of_result (h : invariant.Result ledger v) :
    ledger.Records v := by
  cases h with
  | value hvalue => exact hvalue
  | returning hvalue => exact records_returning_iff.2 hvalue

end Ledger

namespace Session

/-- The ledger has every function that is in the session or in a value at
hand. -/
structure Recorded (session : Session) (held : List Value) (ledger : Ledger) :
    Prop where
  store : Ledger.invariant.Holds ledger session.store
  held : ∀ value ∈ held, ledger.Records value

namespace Recorded

variable {session session' : Session} {held held' : List Value}
  {ledger : Ledger}

theorem supplied (h : session.Recorded held ledger) {value : Value}
    (hvalue : Supplies held value) : ledger.Records value := by
  intro closure hclosure
  obtain ⟨other, hother, hholds⟩ := hvalue closure hclosure
  exact h.held other hother closure hholds

theorem mono {later : Ledger} (h : session.Recorded held ledger)
    (hlonger : ledger <+: later)
    (hstore : Ledger.invariant.Holds later session'.store) :
    session'.Recorded held later :=
  ⟨hstore, fun value hvalue => (h.held value hvalue).mono hlonger⟩

theorem cons {value : Value} (h : session.Recorded held ledger)
    (hvalue : ledger.Records value) : session.Recorded (value :: held) ledger :=
  ⟨h.store, List.forall_mem_cons.2 ⟨hvalue, h.held⟩⟩

theorem perform (h : session.Recorded held ledger) {α : Type} {run : EvalM α}
    {good : Ledger → α → Prop}
    (hends : Ledger.invariant.Ends ledger good (run session.store)) :
    ∃ later, (session.perform run).2.Recorded held later ∧
      ∀ a, (session.perform run).1 = .ok a → good later a := by
  rw [Session.perform]
  generalize run session.store = result at hends ⊢
  cases hends with
  | @ok a after later hlonger hstore ha =>
      refine ⟨later, h.mono hlonger hstore, ?_⟩
      rintro _ ⟨⟩
      exact ha
  | @error fault after later hlonger hstore =>
      refine ⟨later, h.mono hlonger hstore, ?_⟩
      rintro _ ⟨⟩

theorem performValue (h : session.Recorded held ledger) {run : EvalM Value}
    (hends : Ledger.invariant.Ends ledger Ledger.invariant.Result
      (run session.store)) :
    ∃ later, (session.perform run).2.Recorded
      ((session.perform run).1.toOption.toList ++ held) later := by
  obtain ⟨later, hrecorded, hvalue⟩ := h.perform hends
  refine ⟨later, hrecorded.store, ?_⟩
  refine List.forall_mem_append.2 ⟨fun value hmem => ?_, hrecorded.held⟩
  cases hresult : (session.perform run).1 with
  | error fault => simp [hresult, Except.toOption] at hmem
  | ok result =>
      obtain rfl : value = result := by
        simpa [hresult, Except.toOption] using hmem
      exact Ledger.records_of_result (hvalue value hresult)

theorem performOutcome (h : session.Recorded held ledger)
    {run : EvalM (Option Value)}
    (hends : Ledger.invariant.Ends ledger Ledger.invariant.Outcome
      (run session.store)) :
    ∃ later, (session.perform run).2.Recorded
      ((session.perform run).1.toOption.join.toList ++ held) later := by
  obtain ⟨later, hrecorded, houtcome⟩ := h.perform hends
  refine ⟨later, hrecorded.store, ?_⟩
  refine List.forall_mem_append.2 ⟨fun value hmem => ?_, hrecorded.held⟩
  cases hresult : (session.perform run).1 with
  | error fault => simp [hresult, Except.toOption] at hmem
  | ok outcome =>
      obtain rfl : outcome = some value := by
        simpa [hresult, Except.toOption] using hmem
      exact Ledger.records_of_result (houtcome _ hresult value rfl)

theorem program (h : session.Recorded held ledger) (source : Program) :
    ∃ later, (session.program source).2.Recorded
      ((session.program source).1 :: held) later := by
  have hkeeps := Ledger.invariant.keeps_eval session.limit session.limit
  have hends := hkeeps.block h.store session.scope source
  rw [Session.program, Eval.program, Eval.evaluator]
  generalize Eval.block (Expr.eval session.limit session.limit) session.scope
    source session.store = result at hends ⊢
  cases hends with
  | @ok outcome after later hlonger hstore houtcome =>
      exact ⟨later, (h.mono hlonger hstore).cons houtcome.value⟩
  | @error fault after later hlonger hstore =>
      refine ⟨later, (h.mono hlonger hstore).cons fun closure hclosure => ?_⟩
      cases hclosure

/-- Whatever is done with a session, its ledger can be kept up. -/
theorem turn (h : session.Recorded held ledger)
    (hturn : Turn (session, held) (session', held')) :
    ∃ later, session'.Recorded held' later := by
  have hkeeps := Ledger.invariant.keeps_eval session.limit session.limit
  cases hturn with
  | enter => exact ⟨ledger, h.store.addScope _, h.held⟩
  | leave =>
      rw [Session.leave]
      split
      · exact ⟨ledger, h⟩
      · exact ⟨ledger, h.store, h.held⟩
  | moveTo _ | setLimit _ => exact ⟨ledger, h.store, h.held⟩
  | define name hvalue =>
      exact ⟨ledger, h.store.define _ name (h.supplied hvalue), h.held⟩
  | lookup hvalue => exact ⟨ledger, h.cons (h.store.lookup hvalue)⟩
  | makeFunction parameters body =>
      obtain ⟨later, hlonger, hstore, hvalue⟩ :=
        (h.store.addScope none).makeFunction parameters body
          session.store.scopes.size
      exact ⟨later, (h.mono hlonger hstore).cons hvalue⟩
  | takeOutput => exact ⟨ledger, h.store.of_eq rfl rfl, h.held⟩
  | statement s =>
      exact h.performOutcome (hkeeps.statement h.store session.scope s)
  | block body =>
      exact h.performOutcome (hkeeps.block h.store session.scope body)
  | expression e => exact h.performValue (hkeeps session.scope e h.store)
  | @apply _ _ callee arguments _ harguments =>
      have hends := hkeeps.apply h.store callee fun argument hmem =>
        h.supplied (harguments argument hmem)
      exact h.performValue hends.result
  | program source => exact h.program source

theorem start (limit : Nat) : (Session.start limit).Recorded [] [] where
  store := by
    refine Invariant.Holds.addScope
      ⟨rfl, fun id scope binding hscope => ?_⟩ none
    cases hscope
  held := List.forall_mem_nil _

theorem turns {limit : Nat} {later : Session × List Value}
    (h : Relation.ReflTransGen Turn (Session.start limit, []) later) :
    ∃ ledger, later.1.Recorded later.2 ledger := by
  induction h with
  | refl => exact ⟨[], start limit⟩
  | tail _ hturn ih =>
      obtain ⟨ledger, hrecorded⟩ := ih
      exact hrecorded.turn hturn

theorem present (h : session.Recorded held ledger) {value : Value}
    (hvalue : session.Present held value) : ledger.Records value := by
  intro closure hclosure
  rcases hvalue closure hclosure with
    ⟨other, hother, hholds⟩ | ⟨_, _, _, hscope, hbinding, hholds⟩
  · exact h.held other hother closure hholds
  · exact h.store.bindings hscope hbinding closure hholds

end Recorded

/-- A serial number stands for one function, wherever in a session that is
found. -/
theorem eq_of_serial_eq {limit : Nat} {session : Session} {held : List Value}
    (h : Relation.ReflTransGen Turn (start limit, []) (session, held))
    {a b : Value} (ha : session.Present held a) (hb : session.Present held b)
    {c d : Closure} (hc : a.Holds c) (hd : b.Holds d)
    (hserial : c.serial = d.serial) : c = d := by
  obtain ⟨ledger, hrecorded⟩ := Recorded.turns h
  have hentry := hrecorded.present ha c hc
  rw [hserial, hrecorded.present hb d hd] at hentry
  exact (Option.some.inj hentry).symm

/-- Equality is an equivalence, and whatever has been done with a fresh session,
equal values that are there are of one type, count as true alike and have the
same text.  The operators `==` and `!=` refuse values of different types and
nothing else; of two values of one type they say whether the values are equal,
each the opposite of the other, whichever one stands on the left. -/
theorem equality_of_values {limit : Nat} {session : Session} {held : List Value}
    (h : Relation.ReflTransGen Turn (start limit, []) (session, held)) :
    (∀ a : Value, (a == a) = true) ∧
    (∀ a b : Value, (a == b) = (b == a)) ∧
    (∀ a b c : Value, (a == b) = true → (b == c) = true → (a == c) = true) ∧
    (∀ a b : Value, session.Present held a → session.Present held b →
      (a == b) = true →
      a.typeName = b.typeName ∧ a.isTruthy = b.isTruthy ∧
      a.inspect = b.inspect) ∧
    (∀ a b : Value, a.typeName ≠ b.typeName →
      BinaryOp.equal.apply a b =
        .error (.typeMismatch a.typeName .equal b.typeName) ∧
      BinaryOp.notEqual.apply a b =
        .error (.typeMismatch a.typeName .notEqual b.typeName)) ∧
    ∀ a b : Value, a.typeName = b.typeName →
      BinaryOp.equal.apply a b = .ok (.boolean (a == b)) ∧
      BinaryOp.notEqual.apply a b = .ok (.boolean !(a == b)) ∧
      BinaryOp.equal.apply b a = BinaryOp.equal.apply a b ∧
      BinaryOp.notEqual.apply b a = BinaryOp.notEqual.apply a b := by
  refine ⟨Value.beq_refl, Value.beq_comm, fun a b c => Value.beq_trans,
    fun a b ha hb heq => ?_, fun a b htypes => ?_, fun a b htypes => ?_⟩
  · have hcoeval := Value.beq_iff_coeval.1 heq
    refine ⟨hcoeval.typeName_eq, hcoeval.isTruthy_eq,
      Value.inspect_eq_of_beq heq ?_⟩
    exact fun c d => eq_of_serial_eq h ha hb
  · rw [BinaryOp.equal_apply, BinaryOp.notEqual_apply, if_neg htypes,
      if_neg htypes]
    exact ⟨rfl, rfl⟩
  · rw [BinaryOp.equal_apply a b, BinaryOp.notEqual_apply a b,
      BinaryOp.equal_apply b a, BinaryOp.notEqual_apply b a, if_pos htypes,
      if_pos htypes, if_pos htypes.symm, if_pos htypes.symm, b.beq_comm a]
    exact ⟨rfl, rfl, rfl, rfl⟩

/-- Two functions with the same text, and an array and a hash with both of them:
they are told apart wherever they stand. -/
theorem equality_of_values_functions :
    let session := ((start 8).program
      [.binding "f" (.function [] []), .binding "g" (.function [] [])]).2
    let f : Value := .function ⟨0, [], [], 0⟩
    let g : Value := .function ⟨1, [], [], 0⟩
    let a : Value := .array [f, .hash [(.integer 1, g)]]
    let b : Value := .array [g, .hash [(.integer 1, f)]]
    session.Present [.null] a ∧ session.Present [.null] b ∧
      BinaryOp.equal.apply a a = .ok (.boolean true) ∧
      BinaryOp.equal.apply a b = .ok (.boolean false) ∧
      BinaryOp.notEqual.apply b a = .ok (.boolean true) ∧
      a.inspect = b.inspect ∧
      BinaryOp.equal.apply a f =
        .error (.typeMismatch .array .equal .function) := by
  intro session f g a b
  have hturns : Relation.ReflTransGen Turn (start 8, []) (session, [.null]) :=
    .single (.program _)
  have hbound {value : Value} {name : String}
      (hvalue : (name, value) ∈ [("f", f), ("g", g)]) :
      session.Present [.null] value := fun closure hclosure =>
    Or.inr ⟨0, ⟨[("f", f), ("g", g)], none⟩, (name, value), rfl,
      hvalue, hclosure⟩
  have hf : session.Present [.null] f := hbound List.mem_cons_self
  have hg : session.Present [.null] g :=
    hbound (List.mem_cons_of_mem _ List.mem_cons_self)
  have hpair {v w : Value} (hv : session.Present [.null] v)
      (hw : session.Present [.null] w) :
      session.Present [.null] (.array [v, .hash [(.integer 1, w)]]) := by
    intro closure hclosure
    cases hclosure with
    | array hmem hclosure =>
        rcases List.mem_cons.1 hmem with rfl | hmem
        · exact hv closure hclosure
        · cases List.mem_singleton.1 hmem
          cases hclosure with
          | hash hmem hclosure =>
              cases List.mem_singleton.1 hmem
              exact hw closure hclosure
  have hdiffer : a.typeName ≠ f.typeName := by
    intro htypes
    cases htypes
  obtain ⟨hrefl, -, -, -, hrefuses, hanswer⟩ := equality_of_values hturns
  refine ⟨hpair hf hg, hpair hg hf, ?_, (hanswer a b rfl).1, ?_, rfl,
    (hrefuses a f hdiffer).1⟩
  · rw [(hanswer a a rfl).1, hrefl]
  · exact (hanswer b a rfl).2.1

end Session

end Scriptlet
