/-
Scanning by byte offsets.  Here a token is made from the text that was cut off
for it by taking slices of that text, and its line is found by taking the line
feeds of the text back off a counter that has passed them.  A slice that does
not start and end between characters of the text, and a difference below zero,
are nothing.  For no source text does that happen, and the tokens are the same.
-/
import Scriptlet.Proofs.Token.Lexemes

namespace Scriptlet

/-- The difference of two numbers, unless it is below zero. -/
def difference? (a b : Nat) : Option Nat := if b ≤ a then some (a - b) else none

theorem difference?_add (a b : Nat) : difference? (a + b) b = some a := by
  rw [difference?, if_pos (Nat.le_add_left b a), Nat.add_sub_cancel]

/-- The bytes that a text takes. -/
def byteLength : List Char → Nat
  | [] => 0
  | c :: text => c.utf8Size + byteLength text

@[simp] theorem byteLength_nil : byteLength [] = 0 := rfl

@[simp] theorem byteLength_cons (c : Char) (text : List Char) :
    byteLength (c :: text) = c.utf8Size + byteLength text := rfl

@[simp] theorem byteLength_append (text text' : List Char) :
    byteLength (text ++ text') = byteLength text + byteLength text' := by
  induction text with
  | nil => rw [List.nil_append, byteLength_nil, Nat.zero_add]
  | cons c text ih =>
      rw [List.cons_append, byteLength_cons, ih, byteLength_cons, Nat.add_assoc]

/-- Cuts a text at a byte offset, unless that is past its end or inside a
character. -/
def splitBytes? : Nat → List Char → Option (List Char × List Char)
  | 0, text => some ([], text)
  | _ + 1, [] => none
  | offset + 1, c :: text =>
      if c.utf8Size ≤ offset + 1 then
        (splitBytes? (offset + 1 - c.utf8Size) text).map fun (front, back) =>
          (c :: front, back)
      else
        none

theorem splitBytes?_eq_some_iff {offset : Nat} {text front back : List Char} :
    splitBytes? offset text = some (front, back) ↔
      text = front ++ back ∧ byteLength front = offset := by
  fun_induction splitBytes? offset text generalizing front with
  | case1 text =>
      constructor
      · rintro ⟨⟩
        exact ⟨rfl, rfl⟩
      · rintro ⟨rfl, hlength⟩
        cases front with
        | nil => rfl
        | cons c front =>
            have hpos := c.utf8Size_pos
            rw [byteLength_cons] at hlength
            omega
  | case2 offset =>
      constructor
      · rintro ⟨⟩
      · rintro ⟨htext, hlength⟩
        rw [(List.append_eq_nil_iff.1 htext.symm).1] at hlength
        cases hlength
  | case3 offset c text hsize ih =>
      constructor
      · intro hsplit
        obtain ⟨⟨inner, _⟩, hinner, heq⟩ := Option.map_eq_some_iff.1 hsplit
        cases heq
        obtain ⟨rfl, hlength⟩ := ih.1 hinner
        exact ⟨rfl, by rw [byteLength_cons]; omega⟩
      · rintro ⟨htext, hlength⟩
        cases front with
        | nil => cases hlength
        | cons d front =>
            rw [List.cons_append] at htext
            obtain ⟨rfl, rfl⟩ := List.cons.inj htext
            rw [byteLength_cons] at hlength
            rw [ih.2 ⟨rfl, by omega⟩]
            rfl
  | case4 offset c text hsize =>
      constructor
      · rintro ⟨⟩
      · rintro ⟨htext, hlength⟩
        cases front with
        | nil => cases hlength
        | cons d front =>
            rw [List.cons_append] at htext
            obtain ⟨rfl, rfl⟩ := List.cons.inj htext
            rw [byteLength_cons] at hlength
            omega

/-- The text between two byte offsets, unless one of them is out of range. -/
def slice? (text : List Char) (start stop : Nat) : Option (List Char) := do
  let (front, _) ← splitBytes? stop text
  let (_, middle) ← splitBytes? start front
  return middle

theorem slice?_append (front middle back : List Char) :
    slice? (front ++ middle ++ back) (byteLength front)
      (byteLength (front ++ middle)) =
      some middle := by
  rw [slice?, splitBytes?_eq_some_iff.2 ⟨rfl, rfl⟩]
  change (splitBytes? (byteLength front) (front ++ middle)).bind _ = _
  rw [splitBytes?_eq_some_iff.2 ⟨rfl, rfl⟩]
  rfl

namespace Quoted

/-- Whether the first quote that is not escaped is the last of `size` bytes.
The text starts at the given offset, behind a backslash if `escaped`. -/
def closesAt (size : Nat) (offset : Nat) (escaped : Bool) : List Char → Bool
  | [] => false
  | c :: text =>
      if escaped then closesAt size (offset + c.utf8Size) false text
      else if c = '\\' then closesAt size (offset + c.utf8Size) true text
      else if c = '"' then offset + 1 == size
      else closesAt size (offset + c.utf8Size) false text

/-- Resolves the escapes; a backslash with nothing behind it stands for
nothing. -/
def resolve : List Char → List Char
  | [] => []
  | ['\\'] => []
  | '\\' :: c :: text => unescape c :: resolve text
  | c :: text => c :: resolve text

variable {body contents : List Char}

theorem Spells.closesAt_append (h : Spells body contents) (size offset : Nat)
    (text : List Char) :
    closesAt size offset false (body ++ text) =
      closesAt size (offset + byteLength body) false text := by
  induction h generalizing offset with
  | nil => rfl
  | plain hquote hbackslash _ ih =>
      rw [List.cons_append, closesAt, if_neg (by decide), if_neg hbackslash,
        if_neg hquote, ih, byteLength_cons, Nat.add_assoc]
  | escaped c _ ih =>
      rw [List.cons_append, List.cons_append, closesAt, if_neg (by decide),
        if_pos rfl, closesAt, if_pos rfl, ih, byteLength_cons, byteLength_cons,
        Nat.add_assoc, Nat.add_assoc]

theorem Spells.resolve_eq (h : Spells body contents) :
    resolve body = contents := by
  induction h with
  | nil => rfl
  | plain hquote hbackslash _ ih =>
      rw [resolve, ih]
      · exact fun hlast => absurd hlast hbackslash
      · exact fun d rest hlast => absurd hlast hbackslash
  | escaped c _ ih => rw [resolve, ih]

/-- The token of a text that starts with a quote, and the line where the text
ends, from the line where it starts. -/
def token? (line : Nat) (text : List Char) : Option (Token × Nat) := do
  let line := line + lineFeeds text
  let body ← slice? text 1 (byteLength text)
  let start ← difference? line (lineFeeds text)
  if closesAt (byteLength body) 0 false body then
    let last ← difference? (byteLength text) 1
    let inner ← slice? text 1 last
    return (⟨.string, String.ofList (resolve inner), start⟩, line)
  else
    return (⟨.illegal, Piece.unterminated, start⟩, line)

theorem slice?_body (body : List Char) :
    slice? ('"' :: body) 1 (byteLength ('"' :: body)) = some body := by
  have hslice := slice?_append ['"'] body []
  rwa [List.append_nil] at hslice

theorem Spells.token?_closed (h : Spells body contents) (line : Nat) :
    token? line ('"' :: (body ++ ['"'])) =
      some (⟨.string, String.ofList contents, line⟩,
        line + lineFeeds ('"' :: (body ++ ['"']))) := by
  have hcloses : closesAt (byteLength (body ++ ['"'])) 0 false (body ++ ['"']) =
      true := by
    rw [h.closesAt_append, byteLength_append, Nat.zero_add]
    exact beq_self_eq_true _
  have hlast : difference? (byteLength ('"' :: (body ++ ['"']))) 1 =
      some (byteLength (['"'] ++ body)) := by
    rw [← List.cons_append, byteLength_append]
    exact difference?_add _ 1
  have hinner : slice? ('"' :: (body ++ ['"'])) 1 (byteLength (['"'] ++ body)) =
      some body :=
    slice?_append ['"'] body ['"']
  simp only [token?, slice?_body, difference?_add, hcloses, hlast, hinner,
    h.resolve_eq, Option.bind_eq_bind, Option.bind_some, if_true, pure]

theorem Spells.token?_open (h : Spells body contents) (line : Nat) :
    token? line ('"' :: body) =
      some (⟨.illegal, Piece.unterminated, line⟩,
        line + lineFeeds ('"' :: body)) := by
  have hcloses : closesAt (byteLength body) 0 false body = false := by
    have hend := h.closesAt_append (byteLength body) 0 []
    rwa [List.append_nil] at hend
  simp only [token?, slice?_body, difference?_add, hcloses, Option.bind_eq_bind,
    Option.bind_some, Bool.false_eq_true, if_false, pure]

end Quoted

/-- The token of a text, and the line to go on with.  A text that starts with a
quote is passed over before its line is asked for; other texts are not passed
over at all. -/
def Piece.token? (line : Nat) (kind : TokenKind) (literal : String)
    (text : List Char) : Option (Token × Nat) :=
  if text.head? = some '"' then
    Quoted.token? line text
  else
    (difference? line (lineFeeds text)).map fun start =>
      (⟨kind, literal, start⟩, line)

theorem Spelling.token?_eq {after text : List Char} {kind : TokenKind}
    {literal : String} (h : Spelling after kind literal text) (line : Nat) :
    Piece.token? line kind literal text =
      some (⟨kind, literal, line⟩, line + lineFeeds text) := by
  rcases h.plain_or_quoted with
    ⟨hhead, hfeeds⟩ | ⟨body, contents, hbody, ⟨rfl, rfl, rfl⟩ | ⟨rfl, rfl, rfl⟩⟩
  · rw [Piece.token?, if_neg hhead, hfeeds]
    exact congrArg (Option.map _) (difference?_add line 0)
  · exact (if_pos rfl).trans (hbody.token?_closed line)
  · exact (if_pos rfl).trans (hbody.token?_open line)

namespace Piece

/-- The tokens among pieces, the first of which starts on `line`, and the line
where the last one ends. -/
def scan? (line : Nat) : List Piece → Option TokenStream
  | [] => some ⟨[], line⟩
  | gap text :: rest => scan? (line + lineFeeds text) rest
  | token kind literal text :: rest => do
      let (read, line) ← token? line kind literal text
      let stream ← scan? line rest
      return { stream with tokens := read :: stream.tokens }

theorem scan?_cut (line : Nat) (text : List Char) :
    scan? line (cut text) =
      some ⟨tokens line (cut text), line + lineFeeds text⟩ := by
  fun_induction cut text generalizing line with
  | case1 => rfl
  | case2 c cs ih =>
      have hfeeds : lineFeeds (c :: cs) =
          lineFeeds (read c cs).1.text + lineFeeds (read c cs).2 := by
        rw [← lineFeeds_append, text_read_append]
      rw [hfeeds, ← Nat.add_assoc]
      cases hread : read c cs with
      | mk piece after =>
          rw [hread] at ih
          cases piece with
          | gap text =>
              rw [scan?, ih, tokens]
              rfl
          | token kind literal text =>
              have htoken := (spelling_of_read hread).token?_eq line
              rw [scan?, htoken, tokens]
              change (scan? (line + lineFeeds text) (cut after)).bind _ = _
              rw [ih]
              rfl

end Piece

/-- All the tokens of a source text, by slices of it. -/
def TokenStream.scan? (source : String) : Option TokenStream :=
  Piece.scan? 1 (Piece.cut source.toList)

theorem TokenStream.scan?_eq (source : String) :
    scan? source = some (ofSource source) :=
  Piece.scan?_cut 1 source.toList

end Scriptlet
