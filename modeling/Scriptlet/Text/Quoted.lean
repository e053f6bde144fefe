/-
String literals in source form.  `encode` writes a literal, `spanBody` finds
where a literal ends, and `contents?` resolves the escapes of a closed one.
-/

namespace Scriptlet

namespace Quoted

/-- The source form of one character inside a literal. -/
def escape : Char → List Char
  | '"' => ['\\', '"']
  | '\\' => ['\\', '\\']
  | '\n' => ['\\', 'n']
  | '\r' => ['\\', 'r']
  | '\t' => ['\\', 't']
  | c => [c]

/-- The character that a backslash followed by `c` stands for. -/
def unescape : Char → Char
  | 'n' => '\n'
  | 'r' => '\r'
  | 't' => '\t'
  | c => c

/-- A whole literal, quotes included. -/
def encode (text : List Char) : List Char :=
  '"' :: text.flatMap escape ++ ['"']

/-- A whole literal, quotes included. -/
def quote (text : String) : String := String.ofList (encode text.toList)

/-- Splits the text after an opening quote where the literal ends: behind the
closing quote, at the end of the text, or in front of a backslash that ends
the text and so escapes nothing. -/
def spanBody : List Char → List Char × List Char
  | [] => ([], [])
  | '"' :: rest => (['"'], rest)
  | ['\\'] => ([], ['\\'])
  | '\\' :: c :: rest =>
      let (body, after) := spanBody rest
      ('\\' :: c :: body, after)
  | c :: rest =>
      let (body, after) := spanBody rest
      (c :: body, after)

/-- What a literal holds, given its text after the opening quote; `none` when
the closing quote is missing. -/
def contents? : List Char → Option (List Char)
  | [] => none
  | ['"'] => some []
  | '\\' :: c :: rest => (contents? rest).map (unescape c :: ·)
  | c :: rest => (contents? rest).map (c :: ·)

theorem spanBody_append (text : List Char) :
    (spanBody text).1 ++ (spanBody text).2 = text := by
  fun_induction spanBody text with
  | case1 => rfl
  | case2 => rfl
  | case3 => rfl
  | case4 c rest body after hspan ih => simp_all
  | case5 c rest _ _ _ body after hspan ih => simp_all

theorem unescape_escape (c : Char) :
    escape c = [c] ∨ ∃ e, escape c = ['\\', e] ∧ unescape e = c := by
  unfold escape
  split
  · exact Or.inr ⟨'"', rfl, rfl⟩
  · exact Or.inr ⟨'\\', rfl, rfl⟩
  · exact Or.inr ⟨'n', rfl, rfl⟩
  · exact Or.inr ⟨'r', rfl, rfl⟩
  · exact Or.inr ⟨'t', rfl, rfl⟩
  · exact Or.inl rfl

end Quoted

end Scriptlet
