/-
Shapes of program trees: which trees can be written down, how large and how high
a tree is, and how many levels its canonical text takes to read.
-/
import Scriptlet.Proofs.Token.Lexed
import Scriptlet.Tree.Basic

namespace Scriptlet

mutual

/-- Every name can be written, no integer is negative and no block is nested. -/
def Expr.WellFormed : Expr → Prop
  | .identifier name => IsName name
  | .integer value => 0 ≤ value.toInt
  | .boolean _ | .string _ => True
  | .array elements => WellFormedExprs elements
  | .hash pairs => WellFormedPairs pairs
  | .unary _ operand => operand.WellFormed
  | .binary _ left right => left.WellFormed ∧ right.WellFormed
  | .conditional condition consequence none =>
      condition.WellFormed ∧ WellFormedStatements consequence
  | .conditional condition consequence (some alternative) =>
      condition.WellFormed ∧ WellFormedStatements consequence ∧
        WellFormedStatements alternative
  | .function parameters body =>
      (∀ parameter ∈ parameters, IsName parameter) ∧ WellFormedStatements body
  | .call callee arguments => callee.WellFormed ∧ WellFormedExprs arguments
  | .index collection position => collection.WellFormed ∧ position.WellFormed

def Statement.WellFormed : Statement → Prop
  | .binding name value => IsName name ∧ value.WellFormed
  | .returning value | .expression value => value.WellFormed
  | .block _ => False

def WellFormedExprs : List Expr → Prop
  | [] => True
  | e :: es => e.WellFormed ∧ WellFormedExprs es

def WellFormedPairs : List (Expr × Expr) → Prop
  | [] => True
  | (key, value) :: pairs =>
      (key.WellFormed ∧ value.WellFormed) ∧ WellFormedPairs pairs

def WellFormedStatements : List Statement → Prop
  | [] => True
  | s :: ss => s.WellFormed ∧ WellFormedStatements ss

end

theorem wellFormedExprs_iff (es : List Expr) :
    WellFormedExprs es ↔ ∀ e ∈ es, e.WellFormed := by
  induction es with
  | nil => simp [WellFormedExprs]
  | cons e es ih => simp [WellFormedExprs, ih]

theorem wellFormedPairs_iff (pairs : List (Expr × Expr)) :
    WellFormedPairs pairs ↔ ∀ pair ∈ pairs, pair.1.WellFormed ∧
      pair.2.WellFormed := by
  induction pairs with
  | nil => simp [WellFormedPairs]
  | cons pair pairs ih => simp [WellFormedPairs, ih]

theorem wellFormedStatements_iff (ss : List Statement) :
    WellFormedStatements ss ↔ ∀ s ∈ ss, s.WellFormed := by
  induction ss with
  | nil => simp [WellFormedStatements]
  | cons s ss ih => simp [WellFormedStatements, ih]

section

variable (join : Nat → Nat → Nat)

mutual

/-- Counts expressions; `join` puts the counts of neighbours together. -/
def Expr.measure : Expr → Nat
  | .identifier _ | .integer _ | .boolean _ | .string _ => 1
  | .array elements => measureExprs elements + 1
  | .hash pairs => measurePairs pairs + 1
  | .unary _ operand => operand.measure + 1
  | .binary _ left right => join left.measure right.measure + 1
  | .conditional condition consequence none =>
      join condition.measure (measureStatements consequence) + 1
  | .conditional condition consequence (some alternative) =>
      join condition.measure (join (measureStatements consequence)
        (measureStatements alternative)) + 1
  | .function _ body => measureStatements body + 1
  | .call callee arguments => join callee.measure (measureExprs arguments) + 1
  | .index collection position => join collection.measure position.measure + 1

def Statement.measure : Statement → Nat
  | .binding _ value | .returning value | .expression value => value.measure
  | .block body => measureStatements body

def measureExprs : List Expr → Nat
  | [] => 0
  | e :: es => join e.measure (measureExprs es)

def measurePairs : List (Expr × Expr) → Nat
  | [] => 0
  | (key, value) :: pairs =>
      join (join key.measure value.measure) (measurePairs pairs)

def measureStatements : List Statement → Nat
  | [] => 0
  | s :: ss => join s.measure (measureStatements ss)

end

end

/-- The number of expressions in a statement. -/
def Statement.nodes (s : Statement) : Nat := s.measure (· + ·)

/-- The number of expressions on the longest way down. -/
def Expr.height (e : Expr) : Nat := e.measure max

/-- The calls that are folded, one after the other, into the first operand of
the canonical text. -/
def Expr.folds : Expr → Nat
  | .call callee _ => callee.folds + 1
  | _ => 0

mutual

/-- The levels that reading the canonical text takes.  Operators and indexes
stand in parentheses there, which take a level of their own. -/
def Expr.need : Expr → Nat
  | .identifier _ | .integer _ | .boolean _ | .string _ => 1
  | .array elements => needExprs elements + 1
  | .hash pairs => needPairs pairs + 1
  | .unary _ operand => operand.need + 2
  | .binary _ left right => max left.need (left.folds + 2 + right.need) + 1
  | .conditional condition consequence none =>
      max condition.need (needStatements consequence) + 1
  | .conditional condition consequence (some alternative) =>
      max condition.need
        (max (needStatements consequence) (needStatements alternative)) + 1
  | .function _ body => needStatements body + 1
  | .call callee arguments =>
      max callee.need (callee.folds + 2 + needExprs arguments)
  | .index collection position =>
      max collection.need (collection.folds + 2 + position.need) + 1

def Statement.need : Statement → Nat
  | .binding _ value | .returning value | .expression value => value.need
  | .block body => needStatements body

def needExprs : List Expr → Nat
  | [] => 0
  | e :: es => max e.need (needExprs es)

def needPairs : List (Expr × Expr) → Nat
  | [] => 0
  | (key, value) :: pairs => max (max key.need value.need) (needPairs pairs)

def needStatements : List Statement → Nat
  | [] => 0
  | s :: ss => max s.need (needStatements ss)

end

theorem Expr.folds_lt_nodes (e : Expr) : e.folds < e.measure (· + ·) := by
  match e with
  | .identifier _ | .integer _ | .boolean _ | .string _ | .array _
  | .hash _ | .unary _ _ | .binary _ _ _ | .conditional _ _ none
  | .conditional _ _ (some _) | .function _ _ | .index _ _ =>
      simp [Expr.folds, Expr.measure]
  | .call callee arguments =>
      have hcallee := callee.folds_lt_nodes
      simp only [Expr.folds, Expr.measure]
      omega

mutual

/-- Every expression takes at most two levels, one for itself and one for its
parentheses. -/
theorem Expr.need_lt (e : Expr) : e.need < 2 * e.measure (· + ·) := by
  match e with
  | .identifier _ | .integer _ | .boolean _ | .string _ =>
      simp [Expr.need, Expr.measure]
  | .array elements =>
      have helements := needExprs_le elements
      simp only [Expr.need, Expr.measure]
      omega
  | .hash pairs =>
      have hpairs := needPairs_le pairs
      simp only [Expr.need, Expr.measure]
      omega
  | .unary _ operand =>
      have hoperand := operand.need_lt
      simp only [Expr.need, Expr.measure]
      omega
  | .binary _ left right =>
      have hleft := left.need_lt
      have hright := right.need_lt
      have hfolds := left.folds_lt_nodes
      simp only [Expr.need, Expr.measure]
      omega
  | .conditional condition consequence none =>
      have hcondition := condition.need_lt
      have hconsequence := needStatements_le consequence
      simp only [Expr.need, Expr.measure]
      omega
  | .conditional condition consequence (some alternative) =>
      have hcondition := condition.need_lt
      have hconsequence := needStatements_le consequence
      have halternative := needStatements_le alternative
      simp only [Expr.need, Expr.measure]
      omega
  | .function _ body =>
      have hbody := needStatements_le body
      simp only [Expr.need, Expr.measure]
      omega
  | .call callee arguments =>
      have hcallee := callee.need_lt
      have harguments := needExprs_le arguments
      have hfolds := callee.folds_lt_nodes
      simp only [Expr.need, Expr.measure]
      omega
  | .index collection position =>
      have hcollection := collection.need_lt
      have hposition := position.need_lt
      have hfolds := collection.folds_lt_nodes
      simp only [Expr.need, Expr.measure]
      omega

theorem Statement.need_le (s : Statement) : s.need ≤ 2 * s.measure (· + ·) := by
  match s with
  | .binding _ value | .returning value | .expression value =>
      exact Nat.le_of_lt value.need_lt
  | .block body => exact needStatements_le body

theorem needExprs_le (es : List Expr) :
    needExprs es ≤ 2 * measureExprs (· + ·) es := by
  match es with
  | [] => exact Nat.zero_le _
  | e :: es =>
      have he := e.need_lt
      have hes := needExprs_le es
      simp only [needExprs, measureExprs]
      omega

theorem needPairs_le (pairs : List (Expr × Expr)) :
    needPairs pairs ≤ 2 * measurePairs (· + ·) pairs := by
  match pairs with
  | [] => exact Nat.zero_le _
  | (key, value) :: pairs =>
      have hkey := key.need_lt
      have hvalue := value.need_lt
      have hpairs := needPairs_le pairs
      simp only [needPairs, measurePairs]
      omega

theorem needStatements_le (ss : List Statement) :
    needStatements ss ≤ 2 * measureStatements (· + ·) ss := by
  match ss with
  | [] => exact Nat.zero_le _
  | s :: ss =>
      have hs := s.need_le
      have hss := needStatements_le ss
      simp only [needStatements, measureStatements]
      omega

end

/-- Statements are read one by one: each has all the levels to itself. -/
theorem needStatements_le_iff (ss : List Statement) (levels : Nat) :
    needStatements ss ≤ levels ↔ ∀ s ∈ ss, s.need ≤ levels := by
  induction ss with
  | nil => simp [needStatements]
  | cons s ss ih => rw [needStatements, Nat.max_le, ih, List.forall_mem_cons]

end Scriptlet
