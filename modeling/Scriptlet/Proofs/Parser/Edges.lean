/-
What a derivation starts with, and the braces in it.  What is read as an
expression or a statement closes no more braces than it opens.  A block may lack
its closing brace, but only at the end of input; so where a statement has a
semicolon as its last token, that semicolon stands in a block without closing
brace, and the statement opens more braces than it closes.
-/
import Scriptlet.Proofs.Parser.Phrase
import Scriptlet.Proofs.Parser.Reads

namespace Scriptlet

section First

variable {ends : List Token → Prop} {tokens rest : List Token} {s : Statement}
  {ss : List Statement}

/-- The kinds of token that a statement can start with. -/
def TokenKind.begins (kind : TokenKind) : Bool :=
  kind == .letWord || kind == .returnWord || kind.opening?.isSome

theorem opening?_of_signOf? {kind : TokenKind} {op : UnaryOp}
    (h : signOf? kind = some op) : kind.opening? = some (.operator op) := by
  unfold signOf? at h
  split at h <;> cases h <;> rfl

theorem Phrase.opens {level : Level} {tokens rest : List Token} {e : Expr} :
    Phrase ends level tokens rest e → (nextKind tokens).opening?.isSome
  | .identifier hkind | .integer hkind _ | .string hkind | .truth hkind
      | .falsity hkind => by
      simp [hkind, TokenKind.opening?]
  | .group hopen _ _ | .array hopen _ _ | .hash hopen _ _ => by
      simp [hopen, TokenKind.opening?]
  | .conditional hword _ _ _ _ _ | .alternative hword _ _ _ _ _ _ _ _
  | .function hword _ _ _ _ _ => by
      simp [hword, TokenKind.opening?]
  | .call left _ _ _ => left.opens
  | .index left _ _ _ => left.opens
  | .unary hop _ => by simp [opening?_of_signOf? hop]
  | .binary left _ _ => left.opens
  | .tighter inner => inner.opens

theorem Phrase.legal {level : Level} {tokens rest : List Token} {e : Expr} :
    Phrase ends level tokens rest e → nextKind tokens ≠ .illegal
  | .identifier hkind | .integer hkind _ | .string hkind | .truth hkind
      | .falsity hkind => by
      simp [hkind]
  | .group hopen _ _ | .array hopen _ _ | .hash hopen _ _ => by simp [hopen]
  | .conditional hword _ _ _ _ _ | .alternative hword _ _ _ _ _ _ _ _
  | .function hword _ _ _ _ _ => by simp [hword]
  | .call left _ _ _ => left.legal
  | .index left _ _ _ => left.legal
  | .unary hop _ => by
      intro hillegal
      rw [nextKind_cons] at hillegal
      rw [hillegal] at hop
      cases hop
  | .binary left _ _ => left.legal
  | .tighter inner => inner.legal

theorem Clause.begins : Clause ends tokens rest s → (nextKind tokens).begins
  | .binding hword _ _ _ => by simp [TokenKind.begins, hword]
  | .returning hword _ => by simp [TokenKind.begins, hword]
  | .expression value => by simp [TokenKind.begins, value.opens]

theorem Clause.legal : Clause ends tokens rest s → nextKind tokens ≠ .illegal
  | .binding hword _ _ _ => by simp [hword]
  | .returning hword _ => by simp [hword]
  | .expression value => value.legal

theorem TokenKind.begins_spec {kind : TokenKind} (h : kind.begins) :
    kind ≠ .eof ∧ kind ≠ .rbrace ∧ kind ≠ .elseWord ∧ kind ≠ .semicolon := by
  revert h
  cases kind <;> decide

/-- What starts the statements of a body, or stands behind a body without
statements, starts nothing else. -/
theorem Sentences.heads {braced : Bool} :
    Sentences ends braced tokens rest ss →
      nextKind tokens ≠ .elseWord ∧ nextKind tokens ≠ .semicolon
  | .closed hclose => by simp [hclose]
  | .ended => by simp [nextKind]
  | .terminated first _ _ | .bare first _ _ => by
      obtain ⟨_, _, helse, hsemicolon⟩ := TokenKind.begins_spec first.begins
      exact ⟨helse, hsemicolon⟩

end First

/-- One for an opening brace, and one less than nothing for a closing one. -/
def TokenKind.brace : TokenKind → Int
  | .lbrace => 1
  | .rbrace => -1
  | _ => 0

/-- The opening braces less the closing ones. -/
def netBraces : List Token → Int
  | [] => 0
  | token :: tokens => token.kind.brace + netBraces tokens

@[simp] theorem netBraces_nil : netBraces [] = 0 := rfl

@[simp] theorem netBraces_cons (token : Token) (tokens : List Token) :
    netBraces (token :: tokens) = token.kind.brace + netBraces tokens := rfl

@[simp] theorem netBraces_append (front back : List Token) :
    netBraces (front ++ back) = netBraces front + netBraces back := by
  induction front with
  | nil => simp
  | cons token front ih =>
      rw [List.cons_append, netBraces_cons, netBraces_cons, ih, Int.add_assoc]

/-- The kind of the last token, or `before` where there is none. -/
def lastKind (before : TokenKind) (tokens : List Token) : TokenKind :=
  tokens.foldl (fun _ token => token.kind) before

@[simp] theorem lastKind_nil (before : TokenKind) :
    lastKind before [] = before := rfl

@[simp] theorem lastKind_cons (before : TokenKind) (token : Token)
    (tokens : List Token) :
    lastKind before (token :: tokens) = lastKind token.kind tokens := rfl

@[simp] theorem lastKind_append (before : TokenKind) (front back : List Token) :
    lastKind before (front ++ back) = lastKind (lastKind before front) back :=
  List.foldl_append

theorem lastKind_of_lastKind {before kind : TokenKind} {tokens : List Token}
    (h : lastKind before tokens = kind) : lastKind kind tokens = kind := by
  cases tokens with
  | nil => rfl
  | cons token tokens => exact h

/-- What an expression or a statement reads: with a semicolon at the end, a
brace is still open. -/
structure WholeBraces (read : List Token) : Prop where
  net : 0 ≤ netBraces read
  net_pos (before : TokenKind) (h : lastKind before read = .semicolon) :
    0 < netBraces read

/-- What is read behind the opening brace of a block: with a semicolon at the
end, or nothing at all, the block is not closed. -/
structure BlockBraces (read : List Token) : Prop where
  net : -1 ≤ netBraces read
  net_nonneg (h : lastKind .semicolon read = .semicolon) : 0 ≤ netBraces read

section Braces

variable {front read : List Token} {token : Token}

theorem wholeBraces_of_last (front : List Token)
    (hnet : 0 ≤ netBraces (front ++ [token]))
    (hkind : token.kind ≠ .semicolon) : WholeBraces (front ++ [token]) where
  net := hnet
  net_pos before h := by
    rw [lastKind_append, lastKind_cons, lastKind_nil] at h
    exact absurd h hkind

theorem WholeBraces.prepend (h : WholeBraces read)
    (hfront : 0 ≤ netBraces front) : WholeBraces (front ++ read) where
  net := by
    rw [netBraces_append]
    exact Int.add_nonneg hfront h.net
  net_pos before hlast := by
    rw [lastKind_append] at hlast
    rw [netBraces_append]
    exact Int.add_pos_of_nonneg_of_pos hfront (h.net_pos _ hlast)

theorem BlockBraces.prepend (h : BlockBraces read)
    (hfront : 0 ≤ netBraces front) : BlockBraces (front ++ read) where
  net := by
    have := h.net
    rw [netBraces_append]
    omega
  net_nonneg hlast := by
    rw [lastKind_append] at hlast
    rw [netBraces_append]
    exact Int.add_nonneg hfront (h.net_nonneg (lastKind_of_lastKind hlast))

/-- A block with what stands in front of it, its opening brace included. -/
theorem BlockBraces.whole (h : BlockBraces read)
    (hfront : 0 < netBraces front) : WholeBraces (front ++ read) where
  net := by
    have := h.net
    rw [netBraces_append]
    omega
  net_pos before hlast := by
    rw [lastKind_append] at hlast
    rw [netBraces_append]
    exact Int.add_pos_of_pos_of_nonneg hfront
      (h.net_nonneg (lastKind_of_lastKind hlast))

end Braces

theorem Level.brace_of_operator? {level : Level} {kind : TokenKind}
    {op : BinaryOp} (h : level.operator? kind = some op) : kind.brace = 0 := by
  unfold operator? at h
  split at h <;> first | rfl | cases h

theorem brace_of_signOf? {kind : TokenKind} {op : UnaryOp}
    (h : signOf? kind = some op) : kind.brace = 0 := by
  unfold signOf? at h
  split at h <;> first | rfl | cases h

theorem FurtherNames.braces {tokens rest : List Token} {names : List String}
    (h : FurtherNames tokens rest names) :
    ∃ read, tokens = read ++ rest ∧ netBraces read = 0 := by
  induction h with
  | nil => exact ⟨[], rfl, rfl⟩
  | @cons comma name tokens rest names hcomma hname _ ih =>
      obtain ⟨read, rfl, hnet⟩ := ih
      exact ⟨comma :: name :: read, rfl, by
        simp [hcomma, hname, hnet, TokenKind.brace]⟩

theorem Names.braces {tokens rest : List Token} {names : List String}
    (h : Names tokens rest names) :
    ∃ read, tokens = read ++ rest ∧ netBraces read = 0 := by
  cases h with
  | none => exact ⟨[], rfl, rfl⟩
  | @some name tokens _ names hname others =>
      obtain ⟨read, rfl, hnet⟩ := others.braces
      exact ⟨name :: read, rfl, by simp [hname, hnet, TokenKind.brace]⟩

section Derivations

variable {ends : List Token → Prop}

mutual

theorem Phrase.braces {level : Level} {tokens rest : List Token} {e : Expr} :
    Phrase ends level tokens rest e → ∃ read, tokens = read ++ rest ∧
      WholeBraces read
  | @Phrase.identifier _ token _ hkind | @Phrase.integer _ token _ _ hkind _
  | @Phrase.string _ token _ hkind | @Phrase.truth _ token _ hkind
  | @Phrase.falsity _ token _ hkind =>
      ⟨[token], rfl,
        wholeBraces_of_last [] (by simp [hkind, TokenKind.brace])
          (by simp [hkind])⟩
  | @Phrase.group _ opening closing _ _ _ hopen inner hclose => by
      obtain ⟨read, rfl, hread⟩ := inner.braces
      refine ⟨opening :: read ++ [closing], by
        simp, wholeBraces_of_last _ ?_ (by simp [hclose])⟩
      simp [hopen, hclose, hread.net, TokenKind.brace]
  | @Phrase.array _ opening closing _ _ _ hopen items hclose => by
      obtain ⟨read, rfl, hread⟩ := items.braces
      refine ⟨opening :: read ++ [closing], by
        simp, wholeBraces_of_last _ ?_ (by simp [hclose])⟩
      simp [hopen, hclose, hread, TokenKind.brace]
  | @Phrase.hash _ opening closing _ _ _ hopen entries hclose => by
      obtain ⟨read, rfl, hread⟩ := entries.braces
      refine ⟨opening :: read ++ [closing], by
        simp, wholeBraces_of_last _ ?_ (by simp [hclose])⟩
      simp only [List.cons_append, netBraces_cons, netBraces_append,
        netBraces_nil, hopen, hclose, TokenKind.brace]
      omega
  | @Phrase.conditional _ word opening closing brace _ _ _ _ _ hword hopen
      test hclose hbrace body => by
      obtain ⟨read, rfl, hread⟩ := test.braces
      obtain ⟨block, rfl, hblock⟩ := body.braces
      refine ⟨(word :: opening :: (read ++ [closing, brace])) ++ block, by
        simp, hblock.whole ?_⟩
      have := hread.net
      simp only [netBraces_cons, netBraces_append, netBraces_nil, hword, hopen,
        hclose, hbrace, TokenKind.brace]
      omega
  | @Phrase.alternative _ word opening closing brace word' brace'
      _ _ _ _ _ _ _ hword hopen test hclose hbrace body hword'
        hbrace' body' => by
      obtain ⟨read, rfl, hread⟩ := test.braces
      obtain ⟨block, rfl, hblock⟩ := body.braces
      obtain ⟨block', rfl, hblock'⟩ := body'.braces
      refine ⟨(word :: opening ::
        (read ++ closing :: brace :: (block ++ [word', brace']))) ++ block', by
        simp, hblock'.whole ?_⟩
      have := hread.net
      have := hblock.net
      simp only [netBraces_cons, netBraces_append, netBraces_nil, hword, hopen,
        hclose, hbrace, hword', hbrace', TokenKind.brace]
      omega
  | @Phrase.function _ word opening closing brace _ _ _ _ _ hword hopen names
      hclose hbrace sentences => by
      obtain ⟨read, rfl, hread⟩ := names.braces
      obtain ⟨block, rfl, hblock⟩ := sentences.braces
      refine ⟨(word :: opening :: (read ++ [closing, brace])) ++ block, by
        simp, hblock.whole ?_⟩
      simp [hword, hopen, hclose, hbrace, hread, TokenKind.brace]
  | @Phrase.call _ opening closing _ _ _ _ _ left hopen items hclose => by
      obtain ⟨read, rfl, hread⟩ := left.braces
      obtain ⟨read', rfl, hread'⟩ := items.braces
      refine ⟨read ++ opening :: read' ++ [closing], by simp,
        wholeBraces_of_last _ ?_ (by simp [hclose])⟩
      have := hread.net
      simp only [netBraces_cons, netBraces_append, netBraces_nil, hopen, hclose,
        TokenKind.brace]
      omega
  | @Phrase.index _ opening closing _ _ _ _ _ left hopen inner hclose => by
      obtain ⟨read, rfl, hread⟩ := left.braces
      obtain ⟨read', rfl, hread'⟩ := inner.braces
      refine ⟨read ++ opening :: read' ++ [closing], by simp,
        wholeBraces_of_last _ ?_ (by simp [hclose])⟩
      have := hread.net
      have := hread'.net
      simp only [netBraces_cons, netBraces_append, netBraces_nil, hopen, hclose,
        TokenKind.brace]
      omega
  | @Phrase.unary _ token _ _ _ _ hop operand => by
      obtain ⟨read, rfl, hread⟩ := operand.braces
      exact ⟨[token] ++ read, rfl,
        hread.prepend (by simp [brace_of_signOf? hop])⟩
  | @Phrase.binary _ _ token _ _ _ _ _ _ left hop right => by
      obtain ⟨read, rfl, hread⟩ := left.braces
      obtain ⟨read', rfl, hread'⟩ := right.braces
      refine ⟨(read ++ [token]) ++ read', by simp, hread'.prepend ?_⟩
      simp [Level.brace_of_operator? hop, hread.net]
  | .tighter inner => inner.braces

theorem Items.braces {tokens rest : List Token} {es : List Expr} :
    Items ends tokens rest es → ∃ read, tokens = read ++ rest ∧
      0 ≤ netBraces read
  | .none => ⟨[], rfl, Int.le_refl 0⟩
  | .some first others => by
      obtain ⟨read, rfl, hread⟩ := first.braces
      obtain ⟨read', rfl, hread'⟩ := others.braces
      refine ⟨read ++ read', by simp, ?_⟩
      rw [netBraces_append]
      exact Int.add_nonneg hread.net hread'

theorem FurtherItems.braces {tokens rest : List Token} {es : List Expr} :
    FurtherItems ends tokens rest es → ∃ read, tokens = read ++ rest ∧
      0 ≤ netBraces read
  | .nil => ⟨[], rfl, Int.le_refl 0⟩
  | @FurtherItems.cons _ comma _ _ _ _ _ hcomma first others => by
      obtain ⟨read, rfl, hread⟩ := first.braces
      obtain ⟨read', rfl, hread'⟩ := others.braces
      refine ⟨comma :: (read ++ read'), by simp, ?_⟩
      have := hread.net
      simp only [netBraces_cons, netBraces_append, hcomma, TokenKind.brace]
      omega

theorem Entries.braces {tokens rest : List Token} {pairs : List (Expr × Expr)} :
    Entries ends tokens rest pairs → ∃ read, tokens = read ++ rest ∧
      0 ≤ netBraces read
  | .none => ⟨[], rfl, Int.le_refl 0⟩
  | @Entries.some _ colon _ _ _ _ _ _ _ key hcolon value others => by
      obtain ⟨read, rfl, hread⟩ := key.braces
      obtain ⟨read', rfl, hread'⟩ := value.braces
      obtain ⟨read'', rfl, hread''⟩ := others.braces
      refine ⟨read ++ colon :: (read' ++ read''), by simp, ?_⟩
      have := hread.net
      have := hread'.net
      simp only [netBraces_cons, netBraces_append, hcolon, TokenKind.brace]
      omega

theorem FurtherEntries.braces {tokens rest : List Token}
    {pairs : List (Expr × Expr)} :
    FurtherEntries ends tokens rest pairs → ∃ read, tokens = read ++ rest ∧
      0 ≤ netBraces read
  | .nil => ⟨[], rfl, Int.le_refl 0⟩
  | @FurtherEntries.cons _ comma colon _ _ _ _ _ _ _ hcomma key hcolon
      value others => by
      obtain ⟨read, rfl, hread⟩ := key.braces
      obtain ⟨read', rfl, hread'⟩ := value.braces
      obtain ⟨read'', rfl, hread''⟩ := others.braces
      refine ⟨comma :: (read ++ colon :: (read' ++ read'')), by simp, ?_⟩
      have := hread.net
      have := hread'.net
      simp only [netBraces_cons, netBraces_append, hcomma, hcolon,
        TokenKind.brace]
      omega

theorem Clause.braces {tokens rest : List Token} {s : Statement} :
    Clause ends tokens rest s → ∃ read, tokens = read ++ rest ∧ WholeBraces read
  | @Clause.binding _ word name sign _ _ _ hword hname hsign value => by
      obtain ⟨read, rfl, hread⟩ := value.braces
      refine ⟨[word, name, sign] ++ read, rfl, hread.prepend ?_⟩
      simp [hword, hname, hsign, TokenKind.brace]
  | @Clause.returning _ word _ _ _ hword value => by
      obtain ⟨read, rfl, hread⟩ := value.braces
      exact ⟨[word] ++ read, rfl,
        hread.prepend (by simp [hword, TokenKind.brace])⟩
  | .expression value => value.braces

/-- Statements up to a closing brace or the end of input. -/
theorem Sentences.braces {braced : Bool} {tokens rest : List Token}
    {ss : List Statement} :
    Sentences ends braced tokens rest ss → ∃ read, tokens = read ++ rest ∧
      BlockBraces read
  | @Sentences.closed _ token _ hclose => by
      refine ⟨[token], rfl, ?_, ?_⟩
      · simp [hclose, TokenKind.brace]
      · simp [hclose]
  | .ended => ⟨[], rfl, by simp, by simp⟩
  | @Sentences.terminated _ _ token _ _ _ _ _ first hsemicolon others => by
      obtain ⟨read, rfl, hread⟩ := first.braces
      obtain ⟨read', rfl, hread'⟩ := others.braces
      refine ⟨(read ++ [token]) ++ read', by simp, hread'.prepend ?_⟩
      simp [hsemicolon, hread.net, TokenKind.brace]
  | .bare first _ others => by
      obtain ⟨read, rfl, hread⟩ := first.braces
      obtain ⟨read', rfl, hread'⟩ := others.braces
      exact ⟨read ++ read', by simp, hread'.prepend hread.net⟩

end

end Derivations

end Scriptlet
