/-
Chains `a + b * c == ...` of plain operands and binary operators.  The parser
decides at every operator whether to fold; the tree it ends with is the one that
splits the whole chain at its rightmost operator of lowest precedence, and then
both sides in the same way.
-/
import Scriptlet.Proofs.Canonical

namespace Scriptlet

/-- The expression that a name or an integer in range is by itself. -/
def Token.plain? (token : Token) : Option Expr :=
  match token.kind with
  | .ident => some (.identifier token.literal)
  | .int => (Integer.ofText? token.literal).map .integer
  | _ => none

namespace Chain

structure Operand where
  token : Token
  value : Expr
  plain : token.plain? = some value

/-- A binary operator and the operand behind it. -/
structure Link where
  sign : Token
  op : BinaryOp
  operand : Operand
  spells : sign.kind.extension? = some (.operator op)

def Link.rank (link : Link) : Nat := link.op.precedence.rank

/-- Links cut at the rightmost operator of lowest precedence. -/
structure Cut (links : List Link) where
  before : List Link
  root : Link
  after : List Link
  whole : links = before ++ root :: after
  lowest : ∀ link ∈ before, root.rank ≤ link.rank
  rightmost : ∀ link ∈ after, root.rank < link.rank

theorem Cut.root_mem {links : List Link} (cut : Cut links) :
    cut.root ∈ links := by
  have hmem : cut.root ∈ cut.before ++ cut.root :: cut.after := by simp
  rwa [← cut.whole] at hmem

theorem Cut.rank_root_le {links : List Link} (cut : Cut links) :
    ∀ link ∈ links, cut.root.rank ≤ link.rank := by
  intro link hmem
  rw [cut.whole, List.mem_append, List.mem_cons] at hmem
  rcases hmem with hbefore | rfl | hafter
  · exact cut.lowest link hbefore
  · exact Nat.le_refl _
  · exact Nat.le_of_lt (cut.rightmost link hafter)

/-- The first operator is the root only if all that follow bind more tightly. -/
def Cut.ofLinks : (head : Link) → (later : List Link) → Cut (head :: later)
  | head, [] => ⟨[], head, [], rfl, by simp, by simp⟩
  | head, next :: later =>
      let cut := Cut.ofLinks next later
      if hrank : head.rank < cut.root.rank then
        { before := []
          root := head
          after := next :: later
          whole := rfl
          lowest := by simp
          rightmost :=
            fun link hmem =>
              Nat.lt_of_lt_of_le hrank (cut.rank_root_le link hmem) }
      else
        { before := head :: cut.before
          root := cut.root
          after := cut.after
          whole := congrArg (head :: ·) cut.whole
          lowest := List.forall_mem_cons.2 ⟨Nat.le_of_not_lt hrank, cut.lowest⟩
          rightmost := cut.rightmost }

theorem Cut.length_eq {links : List Link} (cut : Cut links) :
    links.length = cut.before.length + cut.after.length + 1 := by
  have hlength := congrArg List.length cut.whole
  rw [List.length_append, List.length_cons] at hlength
  omega

end Chain

open Chain

/-- Operands with operators between them. -/
structure Chain where
  first : Chain.Operand
  links : List Chain.Link

namespace Chain

def tokensOf (links : List Link) : List Token :=
  links.flatMap fun link => [link.sign, link.operand.token]

def tokens (chain : Chain) : List Token :=
  chain.first.token :: tokensOf chain.links

/-- The tree of a chain: its root is the rightmost operator of lowest
precedence, between the trees of the chains on both sides. -/
def tree : Chain → Expr
  | ⟨first, []⟩ => first.value
  | ⟨first, head :: later⟩ =>
      .binary (Cut.ofLinks head later).root.op
        (tree ⟨first, (Cut.ofLinks head later).before⟩)
        (tree ⟨(Cut.ofLinks head later).root.operand,
          (Cut.ofLinks head later).after⟩)
termination_by chain => chain.links.length
decreasing_by
  all_goals
    have := (Cut.ofLinks head later).length_eq
    simp only [List.length_cons] at this ⊢
    omega

theorem tree_cons (first : Operand) (head : Link) (later : List Link) :
    tree ⟨first, head :: later⟩ = .binary (Cut.ofLinks head later).root.op
      (tree ⟨first, (Cut.ofLinks head later).before⟩)
      (tree ⟨(Cut.ofLinks head later).root.operand,
        (Cut.ofLinks head later).after⟩) := by
  rw [tree]

variable {ends : List Token → Prop} {links : List Link}

theorem Operand.exists_phrase (operand : Operand) (rest : List Token)
    (level : Level) :
    ∃ phrase : Phrase ends level (operand.token :: rest) rest operand.value,
      phrase.folds = 0 ∧ phrase.need = 1 := by
  obtain ⟨token, value, hplain⟩ := operand
  unfold Token.plain? at hplain
  split at hplain
  · next hkind =>
      cases hplain
      exact ⟨(Phrase.identifier hkind).lift level, Phrase.folds_lift _ level,
        Phrase.need_lift _ level⟩
  · next hkind =>
      obtain ⟨number, hnumber, rfl⟩ := Option.map_eq_some_iff.1 hplain
      exact ⟨(Phrase.integer hkind hnumber).lift level,
        Phrase.folds_lift _ level, Phrase.need_lift _ level⟩
  · cases hplain

theorem rank_ofOperator (op : BinaryOp) :
    (Level.ofOperator op).rank + 1 = op.precedence.rank := by
  cases op <;> rfl

theorem Cut.tokens_append (cut : Cut links) (first : Operand)
    (rest : List Token) :
    tokens ⟨first, links⟩ ++ rest = tokens ⟨first, cut.before⟩ ++
      cut.root.sign :: (tokens ⟨cut.root.operand, cut.after⟩ ++ rest) := by
  have htokens := congrArg (tokensOf · ++ rest) cut.whole
  simpa [tokens, tokensOf] using htokens

/-- The tree of the chain is derived at the level.  The derivation folds no more
than there are operators, and takes one level for every operator and for every
level of precedence from this one on. -/
def DerivedAt (ends : List Token → Prop) (level : Level) (chain : Chain) :
    Prop :=
  ∀ rest, ∃ phrase : Phrase ends level (chain.tokens ++ rest) rest chain.tree,
    phrase.folds ≤ chain.links.length ∧
    phrase.need ≤ chain.links.length + (5 - level.rank)

namespace DerivedAt

variable {level : Level}

theorem alone (first : Operand) (hlevel : level.rank < 5) :
    DerivedAt ends level ⟨first, []⟩ := by
  intro rest
  obtain ⟨phrase, hfolds, hneed⟩ := first.exists_phrase rest level
  have hleft : 1 ≤ 0 + (5 - level.rank) := by omega
  rw [tree]
  exact ⟨phrase, Nat.le_of_eq hfolds, Nat.le_trans (Nat.le_of_eq hneed) hleft⟩

theorem tighter {chain : Chain} (hlevel : level.rank < 5)
    (h : DerivedAt ends level.tighter chain) : DerivedAt ends level chain := by
  intro rest
  obtain ⟨inner, hfolds, hneed⟩ := h rest
  rw [Level.rank_tighter hlevel] at hneed
  have hless : chain.links.length + (5 - (level.rank + 1)) ≤
      chain.links.length + (5 - level.rank) := by omega
  exact ⟨.tighter inner, hfolds, Nat.le_trans hneed hless⟩

theorem loosen {chain : Chain} {looser : Level} (h : DerivedAt ends level chain)
    (hle : looser.rank ≤ level.rank) : DerivedAt ends looser chain :=
  Level.of_tighter (motive := fun level => DerivedAt ends level chain)
    (fun _ hlevel => tighter hlevel) hle h

/-- The two sides of the root make a derivation at the root's level. -/
theorem binary {first : Operand} (cut : Cut links)
    (htree : tree ⟨first, links⟩ =
      .binary cut.root.op (tree ⟨first, cut.before⟩)
      (tree ⟨cut.root.operand, cut.after⟩))
    (hlevel : Level.ofOperator cut.root.op = level) (hrank : level.rank < 5)
    (hleft : DerivedAt ends level ⟨first, cut.before⟩)
    (hright : DerivedAt ends level.tighter ⟨cut.root.operand, cut.after⟩) :
    DerivedAt ends level ⟨first, links⟩ := by
  intro rest
  have hlength := cut.length_eq
  obtain ⟨right, -, hright⟩ := hright rest
  obtain ⟨left, hfolds, hleft⟩ := hleft (cut.root.sign ::
    (tokens ⟨cut.root.operand, cut.after⟩ ++ rest))
  have hsign : level.operator? cut.root.sign.kind = some cut.root.op :=
    hlevel ▸ operator?_ofOperator cut.root.spells
  dsimp only at hfolds hleft hright ⊢
  rw [Level.rank_tighter hrank] at hright
  rw [htree, cut.tokens_append first rest]
  refine ⟨.binary left hsign right, ?_, ?_⟩
  · change left.folds + 1 ≤ links.length
    omega
  · change max left.need (left.folds + 2 + right.need) ≤
      links.length + (5 - level.rank)
    omega

end DerivedAt

/-- A chain is derived at every level that none of its operators is looser
than. -/
theorem derivedAt (chain : Chain) {level : Level} (hlevel : level.rank < 5)
    (htight : ∀ link ∈ chain.links, level.rank < link.rank) :
    DerivedAt ends level chain := by
  fun_induction tree chain generalizing level with
  | case1 first => exact .alone first hlevel
  | case2 first head later ihLeft ihRight =>
      have htree := tree_cons first head later
      generalize Cut.ofLinks head later = cut at *
      have hroot : level.rank < cut.root.rank := htight _ cut.root_mem
      have hrank : _ = cut.root.rank := rank_ofOperator cut.root.op
      have hbelow : (Level.ofOperator cut.root.op).rank < 4 := by
        cases cut.root.op <;> decide
      have htighter := Level.rank_tighter (Nat.lt_succ_of_lt hbelow)
      have hleft := ihLeft (Nat.lt_succ_of_lt hbelow) fun link hmem => by
        have := cut.lowest link hmem
        omega
      have hright :=
        ihRight (by omega : (Level.ofOperator cut.root.op).tighter.rank < 5)
          fun link hmem => by
          have := cut.rightmost link hmem
          omega
      have hhere :=
        DerivedAt.binary cut htree rfl (Nat.lt_succ_of_lt hbelow) hleft hright
      exact hhere.loosen (by omega)

theorem kind_ne_eof (chain : Chain) :
    ∀ token ∈ chain.tokens, token.kind ≠ .eof := by
  have hoperand (operand : Operand) : operand.token.kind ≠ .eof := by
    intro hkind
    have hplain := operand.plain
    simp [Token.plain?, hkind] at hplain
  have hsign (link : Link) : link.sign.kind ≠ .eof := by
    intro hkind
    have hspells := link.spells
    rw [hkind] at hspells
    cases hspells
  intro token hmem
  simp only [tokens, tokensOf, List.mem_cons, List.mem_flatMap,
    List.not_mem_nil, or_false] at hmem
  rcases hmem with rfl | ⟨link, -, rfl | rfl⟩
  · exact hoperand chain.first
  · exact hsign link
  · exact hoperand link.operand

/-- A chain is a program of one statement; it is read with five levels more than
it has operators. -/
theorem exists_sentences (chain : Chain) :
    ∃ sentences : Sentences Separated false chain.tokens []
      [.expression chain.tree],
      sentences.need ≤ chain.links.length + 5 := by
  have hderived : DerivedAt Separated .equality chain := by
    refine chain.derivedAt (by decide) fun link _ => ?_
    exact Nat.lt_of_lt_of_le (Nat.succ_pos _)
      (Nat.le_of_eq (rank_ofOperator link.op))
  have hend := hderived []
  rw [List.append_nil] at hend
  obtain ⟨phrase, -, hneed⟩ := hend
  have hseparated : Separated [] := trivial
  refine ⟨.bare (.expression phrase) hseparated .ended, ?_⟩
  change max phrase.need 0 ≤ chain.links.length + 5
  rw [Nat.max_zero]
  exact hneed

end Chain

/-- A chain of operands and operators is read as its tree, unless it is
reported; up to 500 operators it is not. -/
theorem Parsed.ofStream_chain (chain : Chain) (trailing : List Token)
    (htrailing : ∀ token ∈ trailing, token.kind = .eof) (endLine : Nat) :
    let parsed := Parsed.ofStream ⟨chain.tokens ++ trailing, endLine⟩
    (parsed.diagnostics = [] → parsed.program = [.expression chain.tree]) ∧
      (chain.links.length ≤ 500 → parsed.diagnostics = []) := by
  intro parsed
  have hat : (Cursor.ofStream ⟨chain.tokens ++ trailing, endLine⟩).At
      chain.tokens :=
    ⟨trailing, rfl, chain.kind_ne_eof, htrailing⟩
  obtain ⟨sentences, hneed⟩ := chain.exists_sentences
  rcases ofStream_of_sentences hat sentences with ⟨_, hread⟩ | ⟨hshort, hdeep⟩
  · have hparsed : parsed = ⟨[.expression chain.tree], []⟩ := hread
    rw [hparsed]
    exact ⟨fun _ => rfl, fun _ => rfl⟩
  · constructor
    · intro hquiet
      obtain ⟨diagnostic, hmem, -⟩ := hdeep
      exact absurd (hquiet ▸ hmem) List.not_mem_nil
    · intro hlength
      have hlevels : maxNesting = 512 := rfl
      omega

/-- `a - b - c * 2` is `(a - b) - (c * 2)`. -/
theorem Parsed.ofStream_chain_left :
    let chain : Chain := ⟨⟨⟨.ident, "a", 1⟩, .identifier "a", rfl⟩,
      [⟨⟨.minus, "-", 1⟩, .sub, ⟨⟨.ident, "b", 1⟩, .identifier "b", rfl⟩, rfl⟩,
        ⟨⟨.minus, "-", 1⟩, .sub, ⟨⟨.ident, "c", 1⟩, .identifier "c", rfl⟩, rfl⟩,
        ⟨⟨.asterisk, "*", 1⟩, .mul, ⟨⟨.int, "2", 1⟩, .integer 2, rfl⟩, rfl⟩]⟩
    let parsed := Parsed.ofStream ⟨chain.tokens ++ [⟨.eof, "", 1⟩], 1⟩
    chain.links.length ≤ 500 ∧ parsed.diagnostics = [] ∧
      parsed.program = [.expression (.binary .sub
        (.binary .sub (.identifier "a") (.identifier "b"))
        (.binary .mul (.identifier "c") (.integer 2)))] := by
  intro chain parsed
  obtain ⟨hprogram, hquiet⟩ :=
    ofStream_chain chain [⟨.eof, "", 1⟩] (by decide) 1
  have htree : chain.tree =
      .binary .sub (.binary .sub (.identifier "a") (.identifier "b"))
        (.binary .mul (.identifier "c") (.integer 2)) := by
    simp [chain, Chain.tree, Cut.ofLinks, Link.rank, BinaryOp.precedence,
      Precedence.rank]
  have hlength : chain.links.length ≤ 500 := by decide
  refine ⟨hlength, hquiet hlength, ?_⟩
  rw [← htree]
  exact hprogram (hquiet hlength)

end Scriptlet
