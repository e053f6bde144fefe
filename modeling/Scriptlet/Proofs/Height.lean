/-
How high the trees are that the parser builds.  A level is given back when a
nested expression is complete, and what was read with it can still be extended:
so trees grow higher than there are levels, up to the square of their number.
-/
import Scriptlet.Proofs.Canonical
import Scriptlet.Proofs.Parser.Trees

namespace Scriptlet

/-- The height of the highest expression. -/
def Program.height (program : Program) : Nat := measureStatements max program

theorem Program.height_expression (e : Expr) :
    Program.height [.expression e] = e.height :=
  Nat.max_zero _

/-- The height of the highest expression that is read with so many levels: one
of those read with one level less, one level around it, and then one extension
for every level left. -/
def tallest : Nat → Nat
  | 0 => 0
  | levels + 1 => tallest levels + 1 + levels

theorem tallest_le {fewer levels : Nat} (h : fewer ≤ levels) :
    tallest fewer ≤ tallest levels := by
  induction h with
  | refl => exact Nat.le_refl _
  | step _ ih =>
      apply Nat.le_trans ih
      rw [tallest]
      omega

theorem two_mul_tallest (levels : Nat) :
    2 * tallest levels = levels * (levels + 1) := by
  induction levels with
  | zero => rfl
  | succ levels ih =>
      rw [tallest]
      simp only [Nat.mul_add, Nat.add_mul] at ih ⊢
      omega

theorem measureExprs_max_le {es : List Expr} {bound : Nat}
    (h : ∀ e ∈ es, e.height ≤ bound) : measureExprs max es ≤ bound := by
  induction es with
  | nil => exact Nat.zero_le _
  | cons e es ih =>
      rw [measureExprs]
      apply Nat.max_le.2
      constructor
      · exact h e List.mem_cons_self
      · exact ih fun e' he' => h e' (List.mem_cons_of_mem e he')

theorem measurePairs_max_le {pairs : List (Expr × Expr)} {bound : Nat}
    (h : ∀ pair ∈ pairs, pair.1.height ≤ bound ∧ pair.2.height ≤ bound) :
    measurePairs max pairs ≤ bound := by
  induction pairs with
  | nil => exact Nat.zero_le _
  | cons pair pairs ih =>
      have hpair := h pair List.mem_cons_self
      rw [measurePairs]
      apply Nat.max_le.2
      constructor
      · exact Nat.max_le.2 hpair
      · exact ih fun pair' hpair' => h pair' (List.mem_cons_of_mem pair hpair')

theorem measureStatements_max_le {ss : List Statement} {bound : Nat}
    (h : ∀ s ∈ ss, s.measure max ≤ bound) :
    measureStatements max ss ≤ bound := by
  induction ss with
  | nil => exact Nat.zero_le _
  | cons s ss ih =>
      rw [measureStatements]
      apply Nat.max_le.2
      constructor
      · exact h s List.mem_cons_self
      · exact ih fun s' hs' => h s' (List.mem_cons_of_mem s hs')

namespace Parser

variable {bound : Nat} {e left : Expr}

theorem height_of_madeOf {ss : List Statement}
    (h : ∀ s ∈ ss, MadeOf (·.height ≤ bound) s) :
    measureStatements max ss ≤ bound := by
  apply measureStatements_max_le
  intro s hs
  cases h s hs with
  | binding hname hvalue => exact hvalue
  | returning hvalue => exact hvalue
  | expression hvalue => exact hvalue

theorem OpenedBy.height_le (h : OpenedBy (·.height ≤ bound) e) :
    e.height ≤ bound + 1 := by
  cases h with
  | identifier hname => exact Nat.le_add_left 1 bound
  | integer hvalue => exact Nat.le_add_left 1 bound
  | string value => exact Nat.le_add_left 1 bound
  | boolean value => exact Nat.le_add_left 1 bound
  | unary op hoperand => exact Nat.succ_le_succ hoperand
  | group hinner => exact Nat.le_succ_of_le hinner
  | array helements => exact Nat.succ_le_succ (measureExprs_max_le helements)
  | hash hpairs => exact Nat.succ_le_succ (measurePairs_max_le hpairs)
  | @conditional condition consequence alternative hcondition hconsequence
      halternative =>
      have hbody := height_of_madeOf hconsequence
      cases alternative with
      | none => exact Nat.succ_le_succ (Nat.max_le.2 ⟨hcondition, hbody⟩)
      | some block =>
          have hblock := height_of_madeOf (halternative block rfl)
          apply Nat.succ_le_succ
          exact Nat.max_le.2 ⟨hcondition, Nat.max_le.2 ⟨hbody, hblock⟩⟩
  | function hparameters hbody =>
      exact Nat.succ_le_succ (height_of_madeOf hbody)

theorem ExtendedBy.height_le (h : ExtendedBy (·.height ≤ bound) left e) :
    e.height ≤ max left.height bound + 1 := by
  have hleft := Nat.le_max_left left.height bound
  have hbound := Nat.le_max_right left.height bound
  cases h with
  | binary op hright =>
      exact Nat.succ_le_succ (Nat.max_le.2 ⟨hleft, Nat.le_trans hright hbound⟩)
  | call harguments =>
      have hitems := measureExprs_max_le harguments
      exact Nat.succ_le_succ (Nat.max_le.2 ⟨hleft, Nat.le_trans hitems hbound⟩)
  | index hposition =>
      exact Nat.succ_le_succ
        (Nat.max_le.2 ⟨hleft, Nat.le_trans hposition hbound⟩)

/-- While an expression is extended, its height and the levels left for
extensions stay within the same bound. -/
theorem levelInvariant_height :
    LevelInvariant (fun levels e => e.height ≤ tallest levels)
      (fun levels fewer e => e.height + fewer ≤ tallest (levels + 1)) where
  opened h := by
    have hopened := h.height_le
    rw [tallest]
    omega
  extended := by
    intro levels fewer left e hfewer hleft h
    have hextended := h.height_le
    have htallest : tallest (fewer + 1) ≤ tallest (levels + 1) :=
      tallest_le (Nat.le_succ_of_le hfewer)
    rw [tallest] at htallest
    omega
  whole h := Nat.le_of_add_right_le h

end Parser

theorem Parsed.height_ofSource_le (source : String) :
    Program.height (ofSource source).program ≤ tallest maxNesting :=
  Parser.height_of_madeOf (madeOf_ofSource Parser.levelInvariant_height source)

/-- The result of calling `e`, called again and again. -/
def called (e : Expr) : Nat → Expr
  | 0 => e
  | n + 1 => .call (called e n) []

section called

variable (e : Expr) (n : Nat)

theorem height_called : (called e n).height = e.height + n := by
  induction n with
  | zero => rfl
  | succ n ih =>
      have hcall : (called e (n + 1)).height = max (called e n).height 0 + 1 :=
        rfl
      rw [hcall, ih, Nat.max_zero]
      omega

theorem folds_called (hfolds : e.folds = 0) : (called e n).folds = n := by
  induction n with
  | zero => exact hfolds
  | succ n ih => rw [called, Expr.folds, ih]

theorem need_called (hfolds : e.folds = 0) (hneed : n < e.need) :
    (called e n).need = e.need := by
  induction n with
  | zero => rfl
  | succ n ih =>
      rw [called, Expr.need, ih (Nat.lt_of_succ_lt hneed),
        folds_called e n hfolds, needExprs]
      omega

theorem wellFormed_called (hwf : e.WellFormed) : (called e n).WellFormed := by
  induction n with
  | zero => exact hwf
  | succ n ih => exact ⟨ih, trivial⟩

end called

/-- An expression of the greatest height that `n + 1` levels allow. -/
def tower : Nat → Expr
  | 0 => .array []
  | n + 1 => called (.array [tower n]) (n + 1)

theorem height_tower (n : Nat) : (tower n).height = tallest (n + 1) := by
  induction n with
  | zero => rfl
  | succ n ih =>
      have harray : (Expr.array [tower n]).height =
          max (tower n).height 0 + 1 := rfl
      rw [tower, height_called, harray, ih, Nat.max_zero]
      rfl

theorem need_tower (n : Nat) : (tower n).need = n + 1 := by
  induction n with
  | zero => rfl
  | succ n ih =>
      have harray : (Expr.array [tower n]).need = n + 2 := by
        rw [Expr.need, needExprs, ih, needExprs, Nat.max_zero]
      rw [tower, need_called _ _ rfl (by omega), harray]

theorem wellFormed_tower (n : Nat) : (tower n).WellFormed := by
  induction n with
  | zero => trivial
  | succ n ih => exact wellFormed_called _ _ ⟨ih, trivial⟩

theorem tallest_maxNesting :
    tallest maxNesting = maxNesting * (maxNesting + 1) / 2 := by
  have htwice := two_mul_tallest maxNesting
  omega

/-- An expression that takes exactly the levels there are is read from its
canonical text. -/
theorem Parsed.ofSource_render_expression {e : Expr} (hwf : e.WellFormed)
    (hneed : e.need = maxNesting) :
    ofSource (Program.render [.expression e]) = ⟨[.expression e], []⟩ := by
  have hlevels : needStatements [.expression e] = maxNesting := by
    rw [needStatements, Statement.need, needStatements, Nat.max_zero, hneed]
  rcases ofSource_render [.expression e] ⟨hwf, trivial⟩ with
    ⟨_, hparsed⟩ | ⟨hdeep, _⟩
  · exact hparsed
  · rw [hlevels] at hdeep
    exact absurd hdeep (Nat.lt_irrefl maxNesting)

/-- The bound on the height of the trees that are read: not the number of levels
but the sum of the numbers up to it. -/
theorem Parsed.height_ofSource_le_iff (bound : Nat) :
    (∀ source : String, Program.height (ofSource source).program ≤ bound) ↔
      maxNesting * (maxNesting + 1) / 2 ≤ bound := by
  rw [← tallest_maxNesting]
  constructor
  · intro hbound
    have hlevels : maxNesting - 1 + 1 = maxNesting := rfl
    have hneed : (tower (maxNesting - 1)).need = maxNesting := by
      rw [need_tower, hlevels]
    have hparsed :=
      ofSource_render_expression (wellFormed_tower (maxNesting - 1)) hneed
    have htower :=
      hbound (Program.render [.expression (tower (maxNesting - 1))])
    rw [hparsed, Program.height_expression, height_tower, hlevels] at htower
    exact htower
  · intro hbound source
    exact Nat.le_trans (height_ofSource_le source) hbound

/-- Arrays, each the only element of the one around it. -/
def nested : Nat → Expr
  | 0 => .array []
  | n + 1 => .array [nested n]

theorem toList_render_nested (n : Nat) :
    (nested n).render.toList =
      List.replicate (n + 1) '[' ++ List.replicate (n + 1) ']' := by
  induction n with
  | zero => rfl
  | succ n ih =>
      have hrender : (nested (n + 1)).render.toList =
          '[' :: ((nested n).render.toList ++ [']']) := by
        simp [nested, Expr.render, renderExprs, commaSeparated]
      rw [hrender, ih, List.replicate_succ, List.append_assoc,
        ← List.replicate_succ']
      rfl

theorem need_nested (n : Nat) : (nested n).need = n + 1 := by
  induction n with
  | zero => rfl
  | succ n ih => rw [nested, Expr.need, needExprs, ih, needExprs, Nat.max_zero]

theorem height_nested (n : Nat) : (nested n).height = n + 1 := by
  induction n with
  | zero => rfl
  | succ n ih =>
      have harray : (nested (n + 1)).height = max (nested n).height 0 + 1 := rfl
      rw [harray, ih, Nat.max_zero]

theorem wellFormed_nested (n : Nat) : (nested n).WellFormed := by
  induction n with
  | zero => trivial
  | succ n ih => exact ⟨ih, trivial⟩

/-- An array nested as deep as can be, and then called: the call is read, and is
one higher than there are levels. -/
theorem Parsed.height_ofSource_nested_call :
    let source := String.ofList
      (List.replicate 512 '[' ++ List.replicate 512 ']' ++ ['(', ')'])
    (ofSource source).diagnostics = [] ∧
      Program.height (ofSource source).program = 513 := by
  intro source
  have hsource : source =
      Program.render [.expression (called (nested 511) 1)] := by
    have hrender : (called (nested 511) 1).render.toList =
        (nested 511).render.toList ++ ['(', ')'] := by
      simp [called, Expr.render, renderExprs, commaSeparated]
    rw [← String.toList_inj, String.toList_ofList, Program.render,
      renderStatements, Statement.render, hrender, toList_render_nested]
  have hneed : (called (nested 511) 1).need = maxNesting := by
    rw [need_called _ _ rfl (by rw [need_nested]; decide), need_nested]
    rfl
  have hparsed :=
    ofSource_render_expression (wellFormed_called _ 1 (wellFormed_nested 511))
      hneed
  rw [hsource, hparsed, Program.height_expression, height_called, height_nested]
  exact ⟨rfl, rfl⟩

end Scriptlet
