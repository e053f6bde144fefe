/-
Reading and printing.  Whatever is read is well formed, and the canonical text
of a well-formed program is read as the program.
-/
import Scriptlet.Proofs.Canonical
import Scriptlet.Proofs.Parser.Trees

namespace Scriptlet

namespace Parser

variable {e left : Expr} {s : Statement}

theorem MadeOf.wellFormed (h : MadeOf Expr.WellFormed s) : s.WellFormed := by
  cases h with
  | binding hname hvalue => exact ⟨hname, hvalue⟩
  | returning hvalue => exact hvalue
  | expression hvalue => exact hvalue

theorem wellFormedStatements_of_madeOf {ss : List Statement}
    (h : ∀ s ∈ ss, MadeOf Expr.WellFormed s) : WellFormedStatements ss :=
  (wellFormedStatements_iff ss).2 fun s hs => (h s hs).wellFormed

theorem OpenedBy.wellFormed (h : OpenedBy Expr.WellFormed e) :
    e.WellFormed := by
  cases h with
  | identifier hname => exact hname
  | integer hvalue => exact hvalue
  | string value => trivial
  | boolean value => trivial
  | unary op hoperand => exact hoperand
  | group hinner => exact hinner
  | array helements => exact (wellFormedExprs_iff _).2 helements
  | hash hpairs => exact (wellFormedPairs_iff _).2 hpairs
  | @conditional condition consequence alternative hcondition hconsequence
      halternative =>
      have hbody := wellFormedStatements_of_madeOf hconsequence
      cases alternative with
      | none => exact ⟨hcondition, hbody⟩
      | some block =>
          exact ⟨hcondition, hbody,
            wellFormedStatements_of_madeOf (halternative block rfl)⟩
  | function hparameters hbody =>
      exact ⟨hparameters, wellFormedStatements_of_madeOf hbody⟩

theorem ExtendedBy.wellFormed (hleft : left.WellFormed)
    (h : ExtendedBy Expr.WellFormed left e) : e.WellFormed := by
  cases h with
  | binary op hright => exact ⟨hleft, hright⟩
  | call harguments => exact ⟨hleft, (wellFormedExprs_iff _).2 harguments⟩
  | index hposition => exact ⟨hleft, hposition⟩

theorem levelInvariant_wellFormed :
    LevelInvariant (fun _ => Expr.WellFormed) (fun _ _ => Expr.WellFormed) where
  opened := OpenedBy.wellFormed
  extended _ hleft h := h.wellFormed hleft
  whole h := h

end Parser

/-- Every name of the program can be written, no integer is negative and no
block is nested. -/
def Program.WellFormed (program : Program) : Prop := ∀ s ∈ program, s.WellFormed

namespace Parsed

/-- A program is read back from its canonical text if no statement has more
expressions than half the levels. -/
theorem ofSource_render_of_nodes {program : Program} (hwf : program.WellFormed)
    (hnodes : ∀ s ∈ program, 2 * s.nodes ≤ maxNesting) :
    ofSource (Program.render program) = ⟨program, []⟩ := by
  have hneed : needStatements program ≤ maxNesting := by
    rw [needStatements_le_iff]
    intro s hs
    exact Nat.le_trans s.need_le (hnodes s hs)
  rcases ofSource_render program ((wellFormedStatements_iff program).2 hwf) with
    ⟨_, hparsed⟩ | ⟨hdeep, _⟩
  · exact hparsed
  · exact absurd hneed (Nat.not_le_of_lt hdeep)

/-- Reading gives well-formed programs only, and those it gives back from their
canonical text. -/
theorem ofSource_wellFormed_and_render :
    (∀ source : String, (ofSource source).program.WellFormed) ∧
      (∀ program : Program, program.WellFormed →
        ofSource (Program.render program) = ⟨program, []⟩ ∨
          (ofSource (Program.render program)).TooDeep) ∧
      ∀ program : Program, program.WellFormed → (∀ s ∈ program, s.nodes ≤ 100) →
        ofSource (Program.render program) = ⟨program, []⟩ := by
  refine ⟨?_, ?_, ?_⟩
  · intro source s hs
    exact (madeOf_ofSource Parser.levelInvariant_wellFormed source s
      hs).wellFormed
  · intro program hwf
    rcases ofSource_render program
      ((wellFormedStatements_iff program).2 hwf) with
      ⟨_, hparsed⟩ | ⟨_, hdeep⟩
    · exact Or.inl hparsed
    · exact Or.inr hdeep
  · intro program hwf hnodes
    apply ofSource_render_of_nodes hwf
    intro s hs
    have hs := hnodes s hs
    rw [maxNesting]
    omega

/-- A program with a name, an integer and an operator. -/
theorem ofSource_render_binding :
    let program : Program :=
      [.binding "a" (.binary .add (.integer 1) (.unary .not (.boolean true)))]
    program.WellFormed ∧ ofSource (Program.render program) = ⟨program, []⟩ := by
  intro program
  have hwf : program.WellFormed := by
    intro s hs
    obtain rfl := List.mem_singleton.1 hs
    have hname : IsName "a" := ⟨by decide, List.all_eq_true.1 rfl, by decide⟩
    have hinteger : 0 ≤ (1 : Int64).toInt := by decide
    exact ⟨hname, hinteger, trivial⟩
  refine ⟨hwf, ofSource_wellFormed_and_render.2.2 program hwf ?_⟩
  decide

end Parsed

end Scriptlet
