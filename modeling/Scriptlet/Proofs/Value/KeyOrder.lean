/-
The order of hash keys, said without comparing code points: integers by the
numbers they stand for, then the booleans, then strings by the bytes of their
UTF-8 text.  Encoding keeps the order of characters, since a longer encoding has
a larger first byte and in encodings of one length the bytes are the digits of
the code point, six bits each.
-/
import Mathlib.Data.List.Lex
import Scriptlet.HashKey

namespace Scriptlet

open String (utf8EncodeChar)

/-- The bytes of a text in UTF-8. -/
def utf8Bytes (text : String) : List UInt8 := text.toUTF8.data.toList

theorem utf8Bytes_eq (text : String) :
    utf8Bytes text = text.toList.flatMap utf8EncodeChar := by
  have hencode : text.toUTF8 = text.toList.utf8Encode := by
    rw [String.toUTF8_eq_toByteArray, ← String.toByteArray_ofList,
      String.ofList_toList]
  rw [utf8Bytes, hencode, List.utf8Encode, List.data_toByteArray]

theorem byte_lt_byte {m n : Nat} (h : m < n) (hn : n < 256) :
    UInt8.ofNat m < UInt8.ofNat n :=
  (UInt8.ofNat_lt_iff_lt (Nat.lt_trans h hn) hn).2 h

/-- A byte with the last six bits of a number, behind bytes that are in the
order of the bits in front of those. -/
theorem append_sixBits_lt {f : Nat → List UInt8} {m n : Nat} (h : m < n)
    (hf : m / 64 < n / 64 → ∀ cs ds, f (m / 64) ++ cs < f (n / 64) ++ ds)
    (cs ds : List UInt8) :
    f (m / 64) ++ UInt8.ofNat (m % 64 + 128) :: cs <
      f (n / 64) ++ UInt8.ofNat (n % 64 + 128) :: ds := by
  by_cases hfront : m / 64 < n / 64
  · exact hf hfront _ _
  · have heq : m / 64 = n / 64 := by omega
    rw [heq]
    exact List.Lex.append_left _ (.rel (byte_lt_byte (by omega) (by omega))) _

/-- The encodings of two characters differ in some byte, and the first such byte
is in the order of the characters. -/
theorem utf8EncodeChar_append_lt {c d : Char} (h : c < d) (cs ds : List UInt8) :
    utf8EncodeChar c ++ cs < utf8EncodeChar d ++ ds := by
  have hlt : c.val.toNat < d.val.toNat := h
  have hbound : d.val.toNat < 0x110000 := by
    rcases d.valid with hlow | hhigh <;> omega
  have h4096 (k : Nat) : k / 4096 = k / 64 / 64 :=
    (Nat.div_div_eq_div_mul k 64 64).symm
  have h262144 (k : Nat) : k / 262144 = k / 64 / 64 / 64 := by
    rw [Nat.div_div_eq_div_mul, Nat.div_div_eq_div_mul]
  simp only [utf8EncodeChar, h4096, h262144]
  generalize c.val.toNat = m at hlt
  generalize d.val.toNat = n at hlt hbound
  split_ifs
  all_goals try omega
  -- The first bytes decide unless both encodings have several bytes, and the
  -- same number.
  all_goals try exact .rel (byte_lt_byte (by omega) (by omega))
  · refine append_sixBits_lt (f := fun k => [UInt8.ofNat (k % 32 + 192)])
      hlt ?_ cs ds
    exact fun hlead cs ds => .rel (byte_lt_byte (by omega) (by omega))
  · refine append_sixBits_lt (f := fun k => [UInt8.ofNat (k / 64 % 16 + 224),
      UInt8.ofNat (k % 64 + 128)]) hlt (fun hfront => ?_) cs ds
    refine append_sixBits_lt (f := fun k => [UInt8.ofNat (k % 16 + 224)])
      hfront ?_
    exact fun hlead cs ds => .rel (byte_lt_byte (by omega) (by omega))
  · refine append_sixBits_lt (f := fun k =>
      [UInt8.ofNat (k / 64 / 64 % 8 + 240), UInt8.ofNat (k / 64 % 64 + 128),
        UInt8.ofNat (k % 64 + 128)]) hlt (fun hfront => ?_) cs ds
    refine append_sixBits_lt (f := fun k => [UInt8.ofNat (k / 64 % 8 + 240),
      UInt8.ofNat (k % 64 + 128)]) hfront fun hfront => ?_
    refine append_sixBits_lt (f := fun k => [UInt8.ofNat (k % 8 + 240)])
      hfront ?_
    exact fun hlead cs ds => .rel (byte_lt_byte (by omega) (by omega))

theorem flatMap_utf8EncodeChar_lt {cs ds : List Char} (h : cs < ds) :
    cs.flatMap utf8EncodeChar < ds.flatMap utf8EncodeChar := by
  induction h with
  | @nil d ds =>
      rw [List.flatMap_nil, List.flatMap_cons]
      cases hbytes : utf8EncodeChar d with
      | nil =>
          simpa [hbytes] using
            d.utf8Size_pos.trans_eq (String.length_utf8EncodeChar d).symm
      | cons byte bytes => exact .nil
  | rel hlt =>
      rw [List.flatMap_cons, List.flatMap_cons]
      exact utf8EncodeChar_append_lt hlt _ _
  | cons _ ih =>
      rw [List.flatMap_cons, List.flatMap_cons]
      exact List.Lex.append_left _ ih _

/-- Strings are in the order of their bytes. -/
theorem utf8Bytes_lt_iff {s t : String} :
    utf8Bytes s < utf8Bytes t ↔ s < t := by
  have hkeeps {s t : String} (h : s < t) : utf8Bytes s < utf8Bytes t := by
    rw [utf8Bytes_eq, utf8Bytes_eq]
    exact flatMap_utf8EncodeChar_lt h
  refine ⟨fun h => ?_, hkeeps⟩
  by_cases hlt : s < t
  · exact hlt
  · by_cases hgt : t < s
    · exact absurd h (List.lt_asymm (hkeeps hgt))
    · cases String.le_antisymm hgt hlt
      exact absurd h (List.lt_irrefl _)

namespace HashKey

/-- Integers ascending, then `false`, `true`, then strings by UTF-8 bytes. -/
inductive Below : HashKey → HashKey → Prop
  | integers {m n : Int64} (h : m.toInt < n.toInt) :
      Below (integer m) (integer n)
  | integerBoolean (n : Int64) (b : Bool) : Below (integer n) (boolean b)
  | integerString (n : Int64) (s : String) : Below (integer n) (string s)
  | booleans : Below (boolean false) (boolean true)
  | booleanString (b : Bool) (s : String) : Below (boolean b) (string s)
  | strings {s t : String} (h : utf8Bytes s < utf8Bytes t) :
      Below (string s) (string t)

/-- Tables are kept in this order. -/
theorem compare_eq_lt_iff {left right : HashKey} :
    compare left right = .lt ↔ Below left right := by
  constructor
  · intro h
    cases left <;> cases right
    case integer.integer m n =>
      rw [compare_integer, Std.compare_eq_lt] at h
      exact .integers (Int64.lt_iff_toInt_lt.1 h)
    case integer.boolean n b => exact .integerBoolean n b
    case integer.string n s => exact .integerString n s
    case boolean.boolean a b =>
      cases a <;> cases b
      case false.true => exact .booleans
      all_goals cases h
    case boolean.string b s => exact .booleanString b s
    case string.string s t =>
      exact .strings (utf8Bytes_lt_iff.2 (compareOfLessAndEq_eq_lt.1 h))
    all_goals cases h
  · intro h
    cases h with
    | integers h =>
        rw [compare_integer, Std.compare_eq_lt]
        exact Int64.lt_iff_toInt_lt.2 h
    | strings h => exact compareOfLessAndEq_eq_lt.2 (utf8Bytes_lt_iff.1 h)
    | integerBoolean | integerString | booleans | booleanString => rfl

end HashKey

end Scriptlet
