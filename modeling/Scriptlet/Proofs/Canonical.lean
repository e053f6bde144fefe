/-
The canonical text of a well-formed tree is read as the tree.  The derivation is
built along the tree while the text is cut into tokens; it takes the number of
levels that `need` tells from the tree alone.
-/
import Scriptlet.Proofs.Parser.Complete
import Scriptlet.Proofs.Tree.Shape
import Scriptlet.Tree.Printer

namespace Scriptlet

variable {ends : List Token → Prop} {level : Level} {tokens rest : List Token}
  {e : Expr} {text : List Char}

attribute [simp] Expr.render Statement.render renderExprs renderPairs

/-- A chain where an expression of any level is wanted. -/
def Phrase.lift (phrase : Phrase ends .chain tokens rest e) :
    (level : Level) → Phrase ends level tokens rest e
  | .chain => phrase
  | .unary => .tighter phrase
  | .product => .tighter (.tighter phrase)
  | .sum => .tighter (.tighter (.tighter phrase))
  | .comparison => .tighter (.tighter (.tighter (.tighter phrase)))
  | .equality => .tighter (.tighter (.tighter (.tighter (.tighter phrase))))

@[simp] theorem Phrase.need_lift (phrase : Phrase ends .chain tokens rest e)
    (level : Level) : (phrase.lift level).need = phrase.need := by
  cases level <;> rfl

@[simp] theorem Phrase.folds_lift (phrase : Phrase ends .chain tokens rest e)
    (level : Level) : (phrase.lift level).folds = phrase.folds := by
  cases level <;> rfl

/-- An expression of any level where a whole expression is wanted. -/
def Phrase.whole : {level : Level} → Phrase ends level tokens rest e →
    Phrase ends .equality tokens rest e
  | .chain, phrase => phrase.lift .equality
  | .unary, phrase => .tighter (.tighter (.tighter (.tighter phrase)))
  | .product, phrase => .tighter (.tighter (.tighter phrase))
  | .sum, phrase => .tighter (.tighter phrase)
  | .comparison, phrase => .tighter phrase
  | .equality, phrase => phrase

@[simp] theorem Phrase.need_whole (phrase : Phrase ends level tokens rest e) :
    phrase.whole.need = phrase.need := by
  cases level <;> rfl

theorem Lexed.operator (op : BinaryOp)
    (h : Lexed (op.symbol.toList ++ ' ' :: text) tokens) :
    ∃ token later, tokens = token :: later ∧
      (Level.ofOperator op).operator? token.kind = some op ∧
      Lexed text later := by
  have hread : ∃ token later, tokens = token :: later ∧
      token.kind.extension? = some (.operator op) ∧
      Lexed (' ' :: text) later := by
    cases op
    all_goals
      obtain ⟨token, later, rfl, hkind, -, hlater⟩ := h.token rfl
      exact ⟨token, later, rfl, by rw [hkind]; rfl, hlater⟩
  obtain ⟨token, later, rfl, hext, hlater⟩ := hread
  exact ⟨token, later, rfl, operator?_ofOperator hext, hlater.blank⟩

theorem Lexed.sign (op : UnaryOp) (hnext : text.head? ≠ some '=')
    (h : Lexed (op.symbol.toList ++ text) tokens) :
    ∃ token later, tokens = token :: later ∧ signOf? token.kind = some op ∧
      Lexed text later := by
  cases op with
  | not =>
      have hread : Piece.read '!' text =
          (.token .bang (String.singleton '!') ['!'], text) := by
        cases text with
        | nil => rfl
        | cons c cs =>
            have hc : c ≠ '=' := by simpa using hnext
            simp [Piece.read, Piece.isBlank, Piece.isWordChar,
              TokenKind.ofSymbol, hc]
      obtain ⟨token, later, rfl, hkind, -, hlater⟩ := h.token hread
      exact ⟨token, later, rfl, by rw [hkind]; rfl, hlater⟩
  | negate =>
      obtain ⟨token, later, rfl, hkind, -, hlater⟩ := h.token rfl
      exact ⟨token, later, rfl, by rw [hkind]; rfl, hlater⟩

theorem head_append_ne {c : Char} {front : List Char} (hfront : c ∉ front)
    (htext : text.head? ≠ some c) : (front ++ text).head? ≠ some c := by
  cases front with
  | nil => exact htext
  | cons d front =>
      have hne : d ≠ c := fun heq => hfront (heq ▸ List.mem_cons_self)
      simpa using hne

/-- No expression starts with an equals sign, which would join the sign in front
of it. -/
theorem Expr.head_render (e : Expr) (h : e.WellFormed) {text : List Char}
    (htext : text.head? ≠ some '=') :
    (e.render.toList ++ text).head? ≠ some '=' := by
  match e with
  | .identifier name =>
      have hname : '=' ∉ name.toList :=
        fun hmem => absurd (h.isWordChar '=' hmem) (by decide)
      exact head_append_ne hname htext
  | .integer value =>
      have hdigits : '=' ∉ (Integer.toText value).toList :=
        fun hmem => absurd (Integer.isDigit_toText h '=' hmem) (by decide)
      exact head_append_ne hdigits htext
  | .boolean true | .boolean false => simp [boolText]
  | .string _ => simp [Quoted.quote, Quoted.encode]
  | .array _ | .hash _ | .unary _ _ | .binary _ _ _ | .conditional _ _ none
  | .conditional _ _ (some _) | .function _ _ | .index _ _ => simp
  | .call callee arguments =>
      have hcallee : (callee.render.toList ++ '(' ::
          ((commaSeparated (renderExprs arguments)).toList ++ ')' ::
            text)).head? ≠ some '=' :=
        callee.head_render h.1 (by simp)
      simpa using hcallee

/-- Texts with a comma and a space in front of each. -/
def furtherTexts (texts : List String) : List Char :=
  texts.flatMap fun text => ',' :: ' ' :: text.toList

theorem toList_commaSeparated (first : String) (texts : List String) :
    (commaSeparated (first :: texts)).toList =
      first.toList ++ furtherTexts texts :=
  toList_intercalate_cons ", " first texts

theorem apart_furtherTexts (texts : List String) (h : Apart text) :
    Apart (furtherTexts texts ++ text) := by
  cases texts with
  | nil => exact h
  | cons first texts => exact apart_cons rfl

/-- The tokens start with an expression, and go on with those of the text. -/
def Spelled (e : Expr) (tokens : List Token) (text : List Char) : Prop :=
  ∃ later, Lexed text later ∧ ∃ phrase : Phrase Separated .chain tokens later e,
    phrase.need = e.need ∧ phrase.folds = e.folds

def SpelledItems (es : List Expr) (tokens : List Token) (text : List Char) :
    Prop :=
  ∃ later, Lexed text later ∧ ∃ items : Items Separated tokens later es,
    items.need = needExprs es

def SpelledFurtherItems (es : List Expr) (tokens : List Token)
    (text : List Char) : Prop :=
  ∃ later, Lexed text later ∧ ∃ items : FurtherItems Separated tokens later es,
    items.need = needExprs es

def SpelledEntries (pairs : List (Expr × Expr)) (tokens : List Token)
    (text : List Char) : Prop :=
  ∃ later, Lexed text later ∧ ∃ entries : Entries Separated tokens later pairs,
    entries.need = needPairs pairs

def SpelledFurtherEntries (pairs : List (Expr × Expr)) (tokens : List Token)
    (text : List Char) : Prop :=
  ∃ later, Lexed text later ∧
    ∃ entries : FurtherEntries Separated tokens later pairs,
      entries.need = needPairs pairs

def SpelledSentences (braced : Bool) (ss : List Statement) (tokens : List Token)
    (text : List Char) : Prop :=
  ∃ later, Lexed text later ∧
    ∃ sentences : Sentences Separated braced tokens later ss,
      sentences.need = needStatements ss

/-- What a list of statements is closed by, and the text behind it. -/
def Closing (braced : Bool) (closing text : List Char) : Prop :=
  Apart closing ∧
    ∀ tokens, Lexed closing tokens → Separated tokens ∧
    SpelledSentences braced [] tokens text

theorem closing_end : Closing false [] [] := by
  refine ⟨apart_nil, fun tokens h => ?_⟩
  obtain rfl := h.eq_nil
  exact ⟨trivial, [], h, .ended, rfl⟩

theorem closing_brace (text : List Char) :
    Closing true ('\x7d' :: text) text := by
  refine ⟨apart_cons rfl, fun tokens h => ?_⟩
  obtain ⟨token, later, rfl, hkind, -, hlater⟩ := h.token rfl
  exact ⟨Or.inl hkind, later, hlater, .closed hkind, rfl⟩

theorem Closing.blank {braced : Bool} {closing : List Char}
    (h : Closing braced closing text) : Closing braced (' ' :: closing) text :=
  ⟨apart_cons rfl, fun tokens hlexed => h.2 tokens hlexed.blank⟩

theorem spelled_furtherNames (names : List String)
    (hnames : ∀ name ∈ names, IsName name) (hapart : Apart text)
    {tokens : List Token} (h : Lexed (furtherTexts names ++ text) tokens) :
    ∃ later, Lexed text later ∧ FurtherNames tokens later names := by
  induction names generalizing tokens with
  | nil => exact ⟨tokens, h, .nil⟩
  | cons name names ih =>
      have htext : furtherTexts (name :: names) ++ text =
          ',' :: ' ' :: (name.toList ++ (furtherTexts names ++ text)) := by
        simp [furtherTexts]
      rw [htext] at h
      obtain ⟨comma, later₁, rfl, hcomma, -, h₁⟩ := h.token rfl
      obtain ⟨token, later₂, rfl, hkind, rfl, h₂⟩ :=
        h₁.blank.name (hnames _ List.mem_cons_self)
          (apart_furtherTexts names hapart)
      obtain ⟨rest, hrest, others⟩ :=
        ih (fun name hname => hnames name (List.mem_cons_of_mem _ hname)) h₂
      exact ⟨rest, hrest, .cons hcomma hkind others⟩

theorem spelled_names (names : List String)
    (hnames : ∀ name ∈ names, IsName name) (hapart : Apart text)
    (h : Lexed ((commaSeparated names).toList ++ text) tokens) :
    ∃ later, Lexed text later ∧ Names tokens later names := by
  cases names with
  | nil => exact ⟨tokens, h, .none⟩
  | cons name names =>
      rw [toList_commaSeparated, List.append_assoc] at h
      obtain ⟨token, later, rfl, hkind, rfl, h₁⟩ :=
        h.name (hnames _ List.mem_cons_self) (apart_furtherTexts names hapart)
      obtain ⟨rest, hrest, others⟩ := spelled_furtherNames names
        (fun name hname => hnames name (List.mem_cons_of_mem _ hname)) hapart h₁
      exact ⟨rest, hrest, .some hkind others⟩

/-- The canonical text of an expression is read as the expression, wherever it
stands. -/
def Expr.Spellable (e : Expr) : Prop :=
  ∀ ⦃text : List Char⦄ ⦃tokens : List Token⦄, Apart text →
    Lexed (e.render.toList ++ text) tokens → Spelled e tokens text

/-- A statement either brings its semicolon or needs one from what follows. -/
def Statement.Spellable (s : Statement) : Prop :=
  ∀ ⦃text : List Char⦄ ⦃tokens : List Token⦄, Apart text →
    Lexed (s.render.toList ++ text) tokens → ∃ later, Lexed text later ∧
      ((s.needsSemicolon = false ∧ ∃ (token : Token)
          (clause : Clause Separated tokens (token :: later) s),
          token.kind = .semicolon ∧ clause.need = s.need) ∨
        (s.needsSemicolon = true ∧ ∃ clause : Clause Separated tokens later s,
          clause.need = s.need))

/-- The statements are read, whatever closes them. -/
def SpellableStatements (ss : List Statement) : Prop :=
  ∀ ⦃braced : Bool⦄ ⦃closing text : List Char⦄ ⦃tokens : List Token⦄,
    Closing braced closing text →
    Lexed ((renderStatements ss).toList ++ closing) tokens →
      SpelledSentences braced ss tokens text

theorem spelled_furtherItems {es : List Expr} (hes : ∀ e ∈ es, e.Spellable)
    (hapart : Apart text)
    (h : Lexed (furtherTexts (renderExprs es) ++ text) tokens) :
    SpelledFurtherItems es tokens text := by
  induction es generalizing tokens with
  | nil => exact ⟨tokens, h, .nil, rfl⟩
  | cons e es ih =>
      rcases List.forall_mem_cons.1 hes with ⟨he, hes⟩
      have htext : furtherTexts (renderExprs (e :: es)) ++ text =
          ',' :: ' ' :: (e.render.toList ++
            (furtherTexts (renderExprs es) ++ text)) := by
        simp [furtherTexts]
      rw [htext] at h
      rcases h.token rfl with ⟨comma, later₁, rfl, hcomma, -, h₁⟩
      rcases he (apart_furtherTexts (renderExprs es) hapart) h₁.blank with
        ⟨later₂, h₂, first, hfirst, -⟩
      rcases ih hes h₂ with ⟨later₃, h₃, others, hothers⟩
      refine ⟨later₃, h₃, .cons hcomma first.whole others, ?_⟩
      change max first.whole.need others.need = max e.need (needExprs es)
      rw [Phrase.need_whole, hfirst, hothers]

theorem spelled_items {es : List Expr} (hes : ∀ e ∈ es, e.Spellable)
    (hapart : Apart text)
    (h : Lexed ((commaSeparated (renderExprs es)).toList ++ text) tokens) :
    SpelledItems es tokens text := by
  cases es with
  | nil => exact ⟨tokens, h, .none, rfl⟩
  | cons e es =>
      rcases List.forall_mem_cons.1 hes with ⟨he, hes⟩
      rw [renderExprs, toList_commaSeparated, List.append_assoc] at h
      rcases he (apart_furtherTexts (renderExprs es) hapart) h with
        ⟨later₁, h₁, first, hfirst, -⟩
      rcases spelled_furtherItems hes hapart h₁
        with ⟨later₂, h₂, others, hothers⟩
      refine ⟨later₂, h₂, .some first.whole others, ?_⟩
      change max first.whole.need others.need = max e.need (needExprs es)
      rw [Phrase.need_whole, hfirst, hothers]

theorem spelled_furtherEntries {pairs : List (Expr × Expr)}
    (hpairs : ∀ pair ∈ pairs, pair.1.Spellable ∧ pair.2.Spellable)
    (hapart : Apart text)
    (h : Lexed (furtherTexts (renderPairs pairs) ++ text) tokens) :
    SpelledFurtherEntries pairs tokens text := by
  induction pairs generalizing tokens with
  | nil => exact ⟨tokens, h, .nil, rfl⟩
  | cons pair pairs ih =>
      rcases pair with ⟨key, value⟩
      rcases List.forall_mem_cons.1 hpairs with ⟨⟨hkey, hvalue⟩, hpairs⟩
      have htext : furtherTexts (renderPairs ((key, value) :: pairs)) ++ text =
          ',' :: ' ' :: (key.render.toList ++ ':' :: ' ' ::
            (value.render.toList ++
              (furtherTexts (renderPairs pairs) ++ text))) := by
        simp [furtherTexts]
      rw [htext] at h
      rcases h.token rfl with ⟨comma, later₁, rfl, hcomma, -, h₁⟩
      rcases hkey (apart_cons rfl) h₁.blank with ⟨later₂, h₂, first, hfirst, -⟩
      rcases h₂.token rfl with ⟨colon, later₃, rfl, hcolon, -, h₃⟩
      rcases hvalue (apart_furtherTexts (renderPairs pairs) hapart) h₃.blank
        with ⟨later₄, h₄, second, hsecond, -⟩
      rcases ih hpairs h₄ with ⟨later₅, h₅, others, hothers⟩
      refine ⟨later₅, h₅,
        .cons hcomma first.whole hcolon second.whole others, ?_⟩
      change max (max first.whole.need second.whole.need) others.need =
        max (max key.need value.need) (needPairs pairs)
      rw [Phrase.need_whole, Phrase.need_whole, hfirst, hsecond, hothers]

theorem spelled_entries {pairs : List (Expr × Expr)}
    (hpairs : ∀ pair ∈ pairs, pair.1.Spellable ∧ pair.2.Spellable)
    (hapart : Apart text)
    (h : Lexed ((commaSeparated (renderPairs pairs)).toList ++ text) tokens) :
    SpelledEntries pairs tokens text := by
  cases pairs with
  | nil => exact ⟨tokens, h, .none, rfl⟩
  | cons pair pairs =>
      rcases pair with ⟨key, value⟩
      rcases List.forall_mem_cons.1 hpairs with ⟨⟨hkey, hvalue⟩, hpairs⟩
      have htext :
          (commaSeparated (renderPairs ((key, value) :: pairs))).toList
              ++ text =
            key.render.toList ++ ':' :: ' ' :: (value.render.toList ++
              (furtherTexts (renderPairs pairs) ++ text)) := by
        simp [toList_commaSeparated]
      rw [htext] at h
      rcases hkey (apart_cons rfl) h with ⟨later₁, h₁, first, hfirst, -⟩
      rcases h₁.token rfl with ⟨colon, later₂, rfl, hcolon, -, h₂⟩
      rcases hvalue (apart_furtherTexts (renderPairs pairs) hapart) h₂.blank
        with ⟨later₃, h₃, second, hsecond, -⟩
      rcases spelled_furtherEntries hpairs hapart h₃
        with ⟨later₄, h₄, others, hothers⟩
      refine ⟨later₄, h₄, .some first.whole hcolon second.whole others, ?_⟩
      change max (max first.whole.need second.whole.need) others.need =
        max (max key.need value.need) (needPairs pairs)
      rw [Phrase.need_whole, Phrase.need_whole, hfirst, hsecond, hothers]

theorem spelled_block {ss : List Statement} (hss : SpellableStatements ss)
    (h : Lexed ((braced ss (renderStatements ss)).toList ++ text) tokens) :
    ∃ brace later, tokens = brace :: later ∧ brace.kind = .lbrace ∧
      SpelledSentences true ss later text := by
  cases ss with
  | nil =>
      rcases h.token rfl with ⟨brace, later, rfl, hbrace, -, h₁⟩
      exact ⟨brace, later, rfl, hbrace, hss (closing_brace text) h₁⟩
  | cons s ss =>
      have htext :
          (braced (s :: ss) (renderStatements (s :: ss))).toList ++ text =
            '\x7b' :: ' ' ::
              ((renderStatements (s :: ss)).toList ++ ' ' ::
                '\x7d' :: text) := by
        simp [braced]
      rw [htext] at h
      rcases h.token rfl with ⟨brace, later, rfl, hbrace, -, h₁⟩
      exact ⟨brace, later, rfl, hbrace, hss (closing_brace text).blank h₁.blank⟩

/-- A conditional up to the end of its first block. -/
theorem spelled_test {condition : Expr} {consequence : List Statement}
    (hcondition : condition.Spellable)
    (hconsequence : SpellableStatements consequence)
    (h : Lexed
      ('i' :: 'f' :: ' ' :: '(' :: (condition.render.toList ++ ')' :: ' ' ::
        ((braced consequence (renderStatements consequence)).toList ++ text)))
      tokens) :
    ∃ word opening closing brace tokens₁ tokens₂,
      tokens = word :: opening :: tokens₁ ∧
      word.kind = .ifWord ∧ opening.kind = .lparen ∧ closing.kind = .rparen ∧
      brace.kind = .lbrace ∧
      (∃ test : Phrase Separated .equality tokens₁
          (closing :: brace :: tokens₂) condition,
        test.need = condition.need) ∧
      SpelledSentences true consequence tokens₂ text := by
  rcases h.token rfl with ⟨word, later₁, rfl, hword, -, h₁⟩
  rcases h₁.blank.token rfl with ⟨opening, later₂, rfl, hopen, -, h₂⟩
  rcases hcondition (apart_cons rfl) h₂ with ⟨later₃, h₃, test, htest, -⟩
  rcases h₃.token rfl with ⟨closing, later₄, rfl, hclose, -, h₄⟩
  rcases spelled_block hconsequence h₄.blank with
    ⟨brace, later₅, rfl, hbrace, hbody⟩
  have hneed : test.whole.need = condition.need := by
    rw [Phrase.need_whole, htest]
  exact ⟨word, opening, closing, brace, later₂, later₅, rfl, hword, hopen,
    hclose, hbrace, ⟨test.whole, hneed⟩, hbody⟩

namespace Expr

variable {left right : Expr} {consequence alternative body : List Statement}

theorem spellable_boolean (value : Bool) : (boolean value).Spellable := by
  intro text tokens hapart h
  cases value with
  | true =>
      have hspelled : Lexed ("true".toList ++ text) tokens := h
      rcases hspelled.word (by decide) (by decide) hapart with
        ⟨token, later, rfl, hkind, -, h₁⟩
      exact ⟨later, h₁, .truth hkind, rfl, rfl⟩
  | false =>
      have hspelled : Lexed ("false".toList ++ text) tokens := h
      rcases hspelled.word (by decide) (by decide) hapart with
        ⟨token, later, rfl, hkind, -, h₁⟩
      exact ⟨later, h₁, .falsity hkind, rfl, rfl⟩

theorem spellable_array {elements : List Expr}
    (helements : ∀ e ∈ elements, e.Spellable) : (array elements).Spellable := by
  intro text tokens _ h
  have htext : (array elements).render.toList ++ text =
      '[' :: ((commaSeparated (renderExprs elements)).toList ++
        ']' :: text) := by
    simp
  rw [htext] at h
  rcases h.token rfl with ⟨opening, later₁, rfl, hopen, -, h₁⟩
  rcases spelled_items helements (apart_cons rfl) h₁
    with ⟨later₂, h₂, items, hneed⟩
  rcases h₂.token rfl with ⟨closing, later₃, rfl, hclose, -, h₃⟩
  refine ⟨later₃, h₃, .array hopen items hclose, ?_, rfl⟩
  exact congrArg (· + 1) hneed

theorem spellable_hash {pairs : List (Expr × Expr)}
    (hpairs : ∀ pair ∈ pairs, pair.1.Spellable ∧ pair.2.Spellable) :
    (hash pairs).Spellable := by
  intro text tokens _ h
  have htext : (hash pairs).render.toList ++ text =
      '\x7b' :: ((commaSeparated (renderPairs pairs)).toList ++
        '\x7d' :: text) := by
    simp
  rw [htext] at h
  rcases h.token rfl with ⟨opening, later₁, rfl, hopen, -, h₁⟩
  rcases spelled_entries hpairs (apart_cons rfl) h₁
    with ⟨later₂, h₂, entries, hneed⟩
  rcases h₂.token rfl with ⟨closing, later₃, rfl, hclose, -, h₃⟩
  refine ⟨later₃, h₃, .hash hopen entries hclose, ?_, rfl⟩
  exact congrArg (· + 1) hneed

theorem spellable_unary (op : UnaryOp) {operand : Expr}
    (hwf : operand.WellFormed) (hoperand : operand.Spellable) :
    (unary op operand).Spellable := by
  intro text tokens _ h
  have htext : (unary op operand).render.toList ++ text =
      '(' :: (op.symbol.toList ++ (operand.render.toList ++ ')' :: text)) := by
    simp
  rw [htext] at h
  rcases h.token rfl with ⟨opening, later₁, rfl, hopen, -, h₁⟩
  rcases Lexed.sign op (operand.head_render hwf (by simp)) h₁ with
    ⟨sign, later₂, rfl, hsign, h₂⟩
  rcases hoperand (apart_cons rfl) h₂ with ⟨later₃, h₃, phrase, hneed, -⟩
  rcases h₃.token rfl with ⟨closing, later₄, rfl, hclose, -, h₄⟩
  let inner := Phrase.unary hsign (phrase.lift .unary)
  refine ⟨later₄, h₄, .group hopen inner.whole hclose, ?_, rfl⟩
  change inner.whole.need + 1 = operand.need + 2
  rw [Phrase.need_whole]
  change (phrase.lift .unary).need + 2 = operand.need + 2
  rw [Phrase.need_lift, hneed]

theorem spellable_binary (op : BinaryOp) (hleft : left.Spellable)
    (hright : right.Spellable) : (binary op left right).Spellable := by
  intro text tokens _ h
  have htext : (binary op left right).render.toList ++ text =
      '(' :: (left.render.toList ++ ' ' ::
        (op.symbol.toList ++ ' ' :: (right.render.toList ++ ')' :: text))) := by
    simp
  rw [htext] at h
  rcases h.token rfl with ⟨opening, later₁, rfl, hopen, -, h₁⟩
  rcases hleft (apart_cons rfl) h₁ with ⟨later₂, h₂, first, hfirst, hfolds⟩
  rcases Lexed.operator op h₂.blank with ⟨sign, later₃, rfl, hsign, h₃⟩
  rcases hright (apart_cons rfl) h₃ with ⟨later₄, h₄, second, hsecond, -⟩
  rcases h₄.token rfl with ⟨closing, later₅, rfl, hclose, -, h₅⟩
  let inner := Phrase.binary (first.lift _) hsign (second.lift _)
  refine ⟨later₅, h₅, .group hopen inner.whole hclose, ?_, rfl⟩
  change inner.whole.need + 1 = max left.need (left.folds + 2 + right.need) + 1
  rw [Phrase.need_whole]
  change max (first.lift _).need
    ((first.lift _).folds + 2 + (second.lift _).need) + 1 = _
  rw [Phrase.need_lift, Phrase.folds_lift, Phrase.need_lift, hfirst,
    hfolds, hsecond]

theorem spellable_conditional {condition : Expr}
    (hcondition : condition.Spellable)
    (hconsequence : SpellableStatements consequence) :
    (conditional condition consequence none).Spellable := by
  intro text tokens _ h
  have htext : (conditional condition consequence none).render.toList ++ text =
      'i' :: 'f' :: ' ' :: '(' :: (condition.render.toList ++ ')' :: ' ' ::
        ((braced consequence (renderStatements consequence)).toList ++
          text)) := by
    simp
  rw [htext] at h
  rcases spelled_test hcondition hconsequence h with ⟨word, opening, closing,
    brace, tokens₁, tokens₂, rfl, hword, hopen, hclose, hbrace, ⟨test, htest⟩,
    later, h₁, sentences, hneed⟩
  refine ⟨later, h₁, .conditional hword hopen test hclose hbrace sentences,
    ?_, rfl⟩
  change max test.need sentences.need + 1 =
    max condition.need (needStatements consequence) + 1
  rw [htest, hneed]

theorem spellable_alternative {condition : Expr}
    (hcondition : condition.Spellable)
    (hconsequence : SpellableStatements consequence)
    (halternative : SpellableStatements alternative) :
    (conditional condition consequence (some alternative)).Spellable := by
  intro text tokens _ h
  have htext :
      (conditional condition consequence (some alternative)).render.toList
          ++ text =
        'i' :: 'f' :: ' ' :: '(' :: (condition.render.toList ++ ')' :: ' ' ::
          ((braced consequence (renderStatements consequence)).toList ++
            ' ' :: 'e' :: 'l' :: 's' :: 'e' :: ' ' ::
            ((braced alternative (renderStatements alternative)).toList ++
              text))) := by
    simp
  rw [htext] at h
  rcases spelled_test hcondition hconsequence h with ⟨word, opening, closing,
    brace, tokens₁, tokens₂, rfl, hword, hopen, hclose, hbrace, ⟨test, htest⟩,
    later₁, h₁, sentences, hneed⟩
  rcases h₁.blank.token rfl with ⟨word', later₂, rfl, hword', -, h₂⟩
  rcases spelled_block halternative h₂.blank with
    ⟨brace', later₃, rfl, hbrace', later₄, h₄, sentences', hneed'⟩
  refine ⟨later₄, h₄,
    .alternative hword hopen test hclose hbrace sentences hword' hbrace'
      sentences', ?_, rfl⟩
  change max test.need (max sentences.need sentences'.need) + 1 =
    max condition.need
      (max (needStatements consequence) (needStatements alternative)) + 1
  rw [htest, hneed, hneed']

theorem spellable_function {parameters : List String}
    (hparameters : ∀ parameter ∈ parameters, IsName parameter)
    (hbody : SpellableStatements body) :
    (function parameters body).Spellable := by
  intro text tokens _ h
  have htext : (function parameters body).render.toList ++ text =
      'f' :: 'n' :: '(' :: ((commaSeparated parameters).toList ++ ')' :: ' ' ::
        ((braced body (renderStatements body)).toList ++ text)) := by
    simp
  rw [htext] at h
  rcases h.token rfl with ⟨word, later₁, rfl, hword, -, h₁⟩
  rcases h₁.token rfl with ⟨opening, later₂, rfl, hopen, -, h₂⟩
  rcases spelled_names parameters hparameters (apart_cons rfl) h₂
    with ⟨later₃, h₃, names⟩
  rcases h₃.token rfl with ⟨closing, later₄, rfl, hclose, -, h₄⟩
  rcases spelled_block hbody h₄.blank with
    ⟨brace, later₅, rfl, hbrace, later₆, h₆, sentences, hneed⟩
  refine ⟨later₆, h₆, .function hword hopen names hclose hbrace sentences,
    ?_, rfl⟩
  exact congrArg (· + 1) hneed

theorem spellable_call {callee : Expr} {arguments : List Expr}
    (hcallee : callee.Spellable) (harguments : ∀ e ∈ arguments, e.Spellable) :
    (call callee arguments).Spellable := by
  intro text tokens _ h
  have htext : (call callee arguments).render.toList ++ text =
      callee.render.toList ++ '(' ::
        ((commaSeparated (renderExprs arguments)).toList ++ ')' :: text) := by
    simp
  rw [htext] at h
  rcases hcallee (apart_cons rfl) h with ⟨later₁, h₁, left, hleft, hfolds⟩
  rcases h₁.token rfl with ⟨opening, later₂, rfl, hopen, -, h₂⟩
  rcases spelled_items harguments (apart_cons rfl) h₂
    with ⟨later₃, h₃, items, hneed⟩
  rcases h₃.token rfl with ⟨closing, later₄, rfl, hclose, -, h₄⟩
  refine ⟨later₄, h₄, .call left hopen items hclose, ?_, ?_⟩
  · change max left.need (left.folds + 2 + items.need) =
      max callee.need (callee.folds + 2 + needExprs arguments)
    rw [hleft, hfolds, hneed]
  · exact congrArg (· + 1) hfolds

theorem spellable_index {collection position : Expr}
    (hcollection : collection.Spellable) (hposition : position.Spellable) :
    (index collection position).Spellable := by
  intro text tokens _ h
  have htext : (index collection position).render.toList ++ text =
      '(' :: (collection.render.toList ++ '[' ::
        (position.render.toList ++ ']' :: ')' :: text)) := by
    simp
  rw [htext] at h
  rcases h.token rfl with ⟨opening, later₁, rfl, hopen, -, h₁⟩
  rcases hcollection (apart_cons rfl) h₁ with ⟨later₂, h₂, left, hleft, hfolds⟩
  rcases h₂.token rfl with ⟨bracket, later₃, rfl, hbracket, -, h₃⟩
  rcases hposition (apart_cons rfl) h₃ with ⟨later₄, h₄, phrase, hneed, -⟩
  rcases h₄.token rfl with ⟨bracket', later₅, rfl, hbracket', -, h₅⟩
  rcases h₅.token rfl with ⟨closing, later₆, rfl, hclose, -, h₆⟩
  let inner := Phrase.index left hbracket phrase.whole hbracket'
  refine ⟨later₆, h₆, .group hopen inner.whole hclose, ?_, rfl⟩
  change inner.whole.need + 1 =
    max collection.need (collection.folds + 2 + position.need) + 1
  rw [Phrase.need_whole]
  change max left.need (left.folds + 2 + phrase.whole.need) + 1 = _
  rw [Phrase.need_whole, hleft, hfolds, hneed]

end Expr

namespace Statement

variable {value : Expr}

theorem spellable_binding {name : String} (hname : IsName name)
    (hvalue : value.Spellable) : (binding name value).Spellable := by
  intro text tokens _ h
  have htext : (binding name value).render.toList ++ text =
      'l' :: 'e' :: 't' :: ' ' :: (name.toList ++ ' ' :: '=' :: ' ' ::
        (value.render.toList ++ ';' :: text)) := by
    simp
  rw [htext] at h
  rcases h.token rfl with ⟨word, later₁, rfl, hword, -, h₁⟩
  rcases h₁.blank.name hname (apart_cons rfl) with ⟨token, later₂, rfl,
    hkind, rfl, h₂⟩
  rcases h₂.blank.token rfl with ⟨sign, later₃, rfl, hsign, -, h₃⟩
  rcases hvalue (apart_cons rfl) h₃.blank with ⟨later₄, h₄, phrase, hneed, -⟩
  rcases h₄.token rfl with ⟨semicolon, later₅, rfl, hsemicolon, -, h₅⟩
  refine ⟨later₅, h₅,
    Or.inl ⟨rfl, semicolon, .binding hword hkind hsign phrase.whole,
      hsemicolon, ?_⟩⟩
  exact phrase.need_whole.trans hneed

theorem spellable_returning (hvalue : value.Spellable) :
    (returning value).Spellable := by
  intro text tokens _ h
  have htext : (returning value).render.toList ++ text =
      'r' :: 'e' :: 't' :: 'u' :: 'r' :: 'n' :: ' ' ::
        (value.render.toList ++ ';' :: text) := by
    simp
  rw [htext] at h
  rcases h.token rfl with ⟨word, later₁, rfl, hword, -, h₁⟩
  rcases hvalue (apart_cons rfl) h₁.blank with ⟨later₂, h₂, phrase, hneed, -⟩
  rcases h₂.token rfl with ⟨semicolon, later₃, rfl, hsemicolon, -, h₃⟩
  refine ⟨later₃, h₃,
    Or.inl ⟨rfl, semicolon, .returning hword phrase.whole, hsemicolon, ?_⟩⟩
  exact phrase.need_whole.trans hneed

theorem spellable_expression (hvalue : value.Spellable) :
    (expression value).Spellable := by
  intro text tokens hapart h
  rcases hvalue hapart h with ⟨later, h₁, phrase, hneed, -⟩
  refine ⟨later, h₁, Or.inr ⟨rfl, .expression phrase.whole, ?_⟩⟩
  exact phrase.need_whole.trans hneed

end Statement

section

variable {braced : Bool} {s : Statement} {ss : List Statement}
  {later : List Token}

theorem SpelledSentences.terminated {token : Token}
    (h : SpelledSentences braced ss later text)
    (clause : Clause Separated tokens (token :: later) s)
    (hsemicolon : token.kind = .semicolon) (hneed : clause.need = s.need) :
    SpelledSentences braced (s :: ss) tokens text := by
  rcases h with ⟨rest, hrest, others, hothers⟩
  refine ⟨rest, hrest, .terminated clause hsemicolon others, ?_⟩
  change max clause.need others.need = max s.need (needStatements ss)
  rw [hneed, hothers]

theorem SpelledSentences.bare (h : SpelledSentences braced ss later text)
    (clause : Clause Separated tokens later s) (hseparated : Separated later)
    (hneed : clause.need = s.need) :
    SpelledSentences braced (s :: ss) tokens text := by
  rcases h with ⟨rest, hrest, others, hothers⟩
  refine ⟨rest, hrest, .bare clause hseparated others, ?_⟩
  change max clause.need others.need = max s.need (needStatements ss)
  rw [hneed, hothers]

end

/-- The last statement is ended by what closes the list, every other one by its
own semicolon or the one that is put behind it. -/
theorem spellableStatements {ss : List Statement}
    (hss : ∀ s ∈ ss, s.Spellable) : SpellableStatements ss := by
  intro braced closing text tokens hclosing h
  induction ss generalizing tokens with
  | nil => exact (hclosing.2 tokens h).2
  | cons s ss ih =>
      rcases List.forall_mem_cons.1 hss with ⟨hs, hss⟩
      cases ss with
      | nil =>
          rcases hs hclosing.1 h with ⟨later, h₁, hclause⟩
          rcases hclosing.2 later h₁ with ⟨hseparated, hrest⟩
          rcases hclause with
            ⟨_, token, clause, hsemicolon, hneed⟩ | ⟨_, clause, hneed⟩
          · exact hrest.terminated clause hsemicolon hneed
          · exact hrest.bare clause hseparated hneed
      | cons s' ss =>
          have htext : (renderStatements (s :: s' :: ss)).toList ++ closing =
              s.render.toList ++
                ((if s.needsSemicolon then [';', ' '] else [' ']) ++
                  ((renderStatements (s' :: ss)).toList ++ closing)) := by
            simp only [renderStatements]
            split <;> simp
          rw [htext] at h
          have hapart : Apart
                ((if s.needsSemicolon then [';', ' '] else [' ']) ++
                  ((renderStatements (s' :: ss)).toList ++ closing)) := by
            split <;> exact apart_cons rfl
          rcases hs hapart h with ⟨later, h₁, hclause⟩
          rcases hclause with
            ⟨hneeds, token, clause, hsemicolon, hneed⟩ | ⟨hneeds, clause, hneed⟩
          · simp only [hneeds, Bool.false_eq_true, if_false] at h₁
            exact (ih hss h₁.blank).terminated clause hsemicolon hneed
          · simp only [hneeds, if_true] at h₁
            rcases h₁.token rfl with ⟨semicolon, later₁, rfl, hsemicolon, -, h₂⟩
            exact (ih hss h₂.blank).terminated clause hsemicolon hneed

mutual

theorem Expr.spellable (e : Expr) (hwf : e.WellFormed) : e.Spellable := by
  match e with
  | .identifier name =>
      intro text tokens hapart h
      rcases h.name hwf hapart with ⟨token, later, rfl, hkind, rfl, h₁⟩
      exact ⟨later, h₁, .identifier hkind, rfl, rfl⟩
  | .integer value =>
      intro text tokens hapart h
      rcases h.integer hwf hapart with ⟨token, later, rfl, hkind, hvalue, h₁⟩
      exact ⟨later, h₁, .integer hkind hvalue, rfl, rfl⟩
  | .boolean value => exact Expr.spellable_boolean value
  | .string contents =>
      intro text tokens _ h
      rcases h.quoted with ⟨token, later, rfl, hkind, rfl, h₁⟩
      exact ⟨later, h₁, .string hkind, rfl, rfl⟩
  | .array elements =>
      exact Expr.spellable_array (Expr.spellable_of_mem elements hwf)
  | .hash pairs =>
      exact Expr.spellable_hash (Expr.spellable_of_mem_pairs pairs hwf)
  | .unary op operand =>
      exact Expr.spellable_unary op hwf (operand.spellable hwf)
  | .binary op left right =>
      exact Expr.spellable_binary op (left.spellable hwf.1)
        (right.spellable hwf.2)
  | .conditional condition consequence none =>
      exact Expr.spellable_conditional (condition.spellable hwf.1)
        (spellableStatements (Statement.spellable_of_mem consequence hwf.2))
  | .conditional condition consequence (some alternative) =>
      exact Expr.spellable_alternative (condition.spellable hwf.1)
        (spellableStatements (Statement.spellable_of_mem consequence hwf.2.1))
        (spellableStatements (Statement.spellable_of_mem alternative hwf.2.2))
  | .function parameters body =>
      exact Expr.spellable_function hwf.1
        (spellableStatements (Statement.spellable_of_mem body hwf.2))
  | .call callee arguments =>
      exact Expr.spellable_call (callee.spellable hwf.1)
        (Expr.spellable_of_mem arguments hwf.2)
  | .index collection position =>
      exact Expr.spellable_index (collection.spellable hwf.1)
        (position.spellable hwf.2)

theorem Expr.spellable_of_mem (es : List Expr) (hwf : WellFormedExprs es) :
    ∀ e ∈ es, e.Spellable := by
  match es with
  | [] => exact List.forall_mem_nil _
  | e :: es =>
      exact List.forall_mem_cons.2
        ⟨e.spellable hwf.1, Expr.spellable_of_mem es hwf.2⟩

theorem Expr.spellable_of_mem_pairs (pairs : List (Expr × Expr))
    (hwf : WellFormedPairs pairs) :
    ∀ pair ∈ pairs, pair.1.Spellable ∧ pair.2.Spellable := by
  match pairs with
  | [] => exact List.forall_mem_nil _
  | (key, value) :: pairs =>
      exact List.forall_mem_cons.2
        ⟨⟨key.spellable hwf.1.1, value.spellable hwf.1.2⟩,
          Expr.spellable_of_mem_pairs pairs hwf.2⟩

theorem Statement.spellable (s : Statement) (hwf : s.WellFormed) :
    s.Spellable := by
  match s with
  | .binding name value =>
      exact Statement.spellable_binding hwf.1 (value.spellable hwf.2)
  | .returning value =>
      exact Statement.spellable_returning (value.spellable hwf)
  | .expression value =>
      exact Statement.spellable_expression (value.spellable hwf)
  | .block _ => exact hwf.elim

theorem Statement.spellable_of_mem (ss : List Statement)
    (hwf : WellFormedStatements ss) : ∀ s ∈ ss, s.Spellable := by
  match ss with
  | [] => exact List.forall_mem_nil _
  | s :: ss =>
      exact List.forall_mem_cons.2
        ⟨s.spellable hwf.1, Statement.spellable_of_mem ss hwf.2⟩

end

theorem TokenStream.at_ofSource (source : String) :
    (Cursor.ofStream (.ofSource source)).At
    (TokenStream.ofSource source).tokens :=
  ⟨[], (List.append_nil _).symm,
    fun token htoken =>
      (Piece.wellSpelled_tokens source.toList 1 token htoken).2, nofun⟩

/-- The canonical text is read as its program exactly if the levels suffice. -/
theorem Parsed.ofSource_render (program : Program)
    (hwf : WellFormedStatements program) :
    (needStatements program ≤ maxNesting ∧ ofSource (Program.render program) =
      ⟨program, []⟩) ∨
      (maxNesting < needStatements program ∧
        (ofSource (Program.render program)).TooDeep) := by
  have hlexed : Lexed ((renderStatements program).toList ++ [])
      (TokenStream.ofSource (Program.render program)).tokens := by
    rw [List.append_nil]
    exact ⟨1, rfl⟩
  have hspellable :=
    spellableStatements (Statement.spellable_of_mem program hwf)
  rcases hspellable closing_end hlexed with ⟨later, hlater, sentences, hneed⟩
  obtain rfl := hlater.eq_nil
  rw [← hneed]
  exact ofStream_of_sentences (TokenStream.at_ofSource _) sentences

end Scriptlet
