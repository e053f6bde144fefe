/-
Reading again what was read.  The canonical text puts operators in parentheses
that the source need not have, and those take levels too: so a program can be
read from its source and nest too deep in its canonical text.
-/
import Scriptlet.Proofs.RoundTrip

namespace Scriptlet

/-- The program is read again from its canonical text, without a diagnostic. -/
def Parsed.Survives (parsed : Parsed) : Prop :=
  ofSource (Program.render parsed.program) = ⟨parsed.program, []⟩

theorem Parsed.survives_iff_need (source : String) :
    (ofSource source).Survives ↔ ∀ s ∈ (ofSource source).program,
      s.need ≤ maxNesting := by
  have hwf : WellFormedStatements (ofSource source).program :=
    Parser.wellFormedStatements_of_madeOf
      (madeOf_ofSource Parser.levelInvariant_wellFormed source)
  rw [← needStatements_le_iff, Survives]
  rcases ofSource_render _ hwf with ⟨henough, hparsed⟩ | ⟨hshort, diagnostic,
    hdiagnostic, -⟩
  · exact ⟨fun _ => henough, fun _ => hparsed⟩
  · -- The diagnostic is there in one direction, and the levels are missing in
    -- the other.
    constructor
    · intro hparsed
      rw [hparsed] at hdiagnostic
      cases hdiagnostic
    · intro henough
      exact absurd henough (Nat.not_le_of_lt hshort)

/-- A name behind so many signs. -/
def negated : Nat → Expr
  | 0 => .identifier "a"
  | n + 1 => .unary .not (negated n)

/-- The same without parentheses, as text. -/
def negatedText (n : Nat) : List Char := List.replicate n '!' ++ ['a']

theorem nodes_negated (n : Nat) :
    (Statement.expression (negated n)).nodes = n + 1 := by
  induction n with
  | zero => rfl
  | succ n ih => exact congrArg (· + 1) ih

theorem need_negated (n : Nat) : (negated n).need = 2 * n + 1 := by
  induction n with
  | zero => rfl
  | succ n ih =>
      rw [negated, Expr.need, ih]
      omega

/-- Without parentheses every sign takes one level, not two. -/
theorem phrase_negated (n : Nat) {tokens : List Token}
    (h : Lexed (negatedText n) tokens) :
    ∃ phrase : Phrase Separated .unary tokens [] (negated n),
      phrase.need = n + 1 := by
  induction n generalizing tokens with
  | zero =>
      have hname : IsName "a" := ⟨by decide, List.all_eq_true.1 rfl, by decide⟩
      have htext : Lexed ("a".toList ++ []) tokens := h
      obtain ⟨token, later, rfl, hkind, hliteral, hlater⟩ :=
        htext.name hname apart_nil
      obtain rfl := hlater.eq_nil
      rw [negated, ← hliteral]
      exact ⟨.tighter (.identifier hkind), rfl⟩
  | succ n ih =>
      have hnext : (negatedText n).head? ≠ some '=' := by
        cases n <;> simp [negatedText, List.replicate_succ]
      obtain ⟨token, later, rfl, hsign, hlater⟩ := Lexed.sign .not hnext h
      obtain ⟨phrase, hneed⟩ := ih hlater
      exact ⟨.unary hsign phrase, congrArg (· + 1) hneed⟩

namespace Parsed

theorem ofSource_negatedText {n : Nat} (h : n < maxNesting) :
    ofSource (String.ofList (negatedText n)) =
      ⟨[.expression (negated n)], []⟩ := by
  let stream := TokenStream.ofSource (String.ofList (negatedText n))
  have hlexed : Lexed (negatedText n) stream.tokens := by
    refine ⟨1, ?_⟩
    rw [← String.toList_ofList (l := negatedText n)]
    rfl
  obtain ⟨phrase, hneed⟩ := phrase_negated n hlexed
  let sentences :
      Sentences Separated false stream.tokens [] [.expression (negated n)] :=
    .bare (.expression phrase.whole) trivial .ended
  have hlevels : sentences.need = n + 1 := by
    change max phrase.whole.need 0 = n + 1
    rw [Phrase.need_whole, hneed, Nat.max_zero]
  rcases ofStream_of_sentences (TokenStream.at_ofSource _) sentences with
    ⟨_, hparsed⟩ | ⟨hshort, _⟩
  · exact hparsed
  · rw [hlevels] at hshort
    exact absurd h (Nat.not_lt_of_le (Nat.le_of_lt_succ hshort))

theorem survives_negated_iff {n : Nat} (h : n < maxNesting) :
    (ofSource (String.ofList (negatedText n))).Survives ↔
      n < maxNesting / 2 := by
  rw [survives_iff_need, ofSource_negatedText h]
  simp only [List.mem_singleton, forall_eq, Statement.need,
    need_negated, maxNesting]
  omega

/-- A program that was read is read again from its canonical text exactly if
none of its statements takes more levels there than there are.  Half as many
expressions as levels in a statement are never too many. -/
theorem survives_iff (source : String) :
    ((ofSource source).Survives ↔ ∀ s ∈ (ofSource source).program,
      s.need ≤ maxNesting) ∧
      ((∀ s ∈ (ofSource source).program, s.nodes ≤ maxNesting / 2) →
        (ofSource source).Survives) := by
  constructor
  · exact survives_iff_need source
  · intro hnodes
    rw [survives_iff_need]
    intro s hs
    have hneed : s.need ≤ 2 * s.nodes := s.need_le
    have hhalf : 2 * (maxNesting / 2) = maxNesting := rfl
    have hbound := hnodes s hs
    omega

/-- A name behind 255 signs has as many expressions as are never too many. -/
theorem survives_iff_signs :
    let source := String.ofList (negatedText 255)
    (∀ s ∈ (ofSource source).program, s.nodes ≤ maxNesting / 2) ∧
      (ofSource source).Survives := by
  intro source
  have hnodes : ∀ s ∈ (ofSource source).program, s.nodes ≤ maxNesting / 2 := by
    rw [ofSource_negatedText (by decide)]
    intro s hs
    obtain rfl := List.mem_singleton.1 hs
    rw [nodes_negated]
    decide
  exact ⟨hnodes, (survives_iff source).2 hnodes⟩

/-- A name behind one sign more is read without a diagnostic, and is not read
again. -/
theorem not_survives_signs :
    let source := String.ofList (List.replicate 256 '!' ++ ['a'])
    (ofSource source).diagnostics = [] ∧
      ofSource (Program.render (ofSource source).program) ≠
        ofSource source := by
  intro source
  have hlevels : 256 < maxNesting := by decide
  have hparsed : ofSource source = ⟨[.expression (negated 256)], []⟩ :=
    ofSource_negatedText hlevels
  have hlost : ¬ (ofSource source).Survives :=
    fun hsurvives =>
      absurd ((survives_negated_iff hlevels).1 hsurvives) (by decide)
  constructor
  · rw [hparsed]
  · intro hagain
    apply hlost
    rw [Survives, hagain, hparsed]

end Parsed

end Scriptlet
