/-
The lines of an input as they are typed: a backspace erases the cluster before
it.  This stands for the behaviour of a library that reads lines where its input
is no terminal.  Only the command uses it; the prompt is given its lines.
-/
import Scriptlet.Text.Cluster

namespace Scriptlet

/-- What has been typed so far. -/
structure Typed where
  /-- The characters, last first. -/
  text : List Char
  /-- How many bytes each backspace to come will erase, the next one first.  A
  size is kept in a single byte. -/
  sizes : List UInt8
deriving DecidableEq, Repr

namespace Typed

def empty : Typed := ⟨[], []⟩

/-- A text without its first `count` bytes; no part of a character is kept. -/
def dropBytes : Nat → List Char → List Char
  | _, [] => []
  | count, c :: rest =>
      if count = 0 then c :: rest else dropBytes (count - c.utf8Size) rest

/-- Erases the last cluster, if there is one. -/
def erase (typed : Typed) : Typed :=
  match typed.sizes with
  | [] => typed
  | size :: sizes => ⟨dropBytes size.toNat typed.text, sizes⟩

/-- Adds a cluster. -/
def add (typed : Typed) (cluster : List Char) : Typed :=
  ⟨cluster.reverse ++ typed.text,
    (cluster.foldl (fun (size : Nat) (c : Char) => size + c.utf8Size)
      0).toUInt8 :: typed.sizes⟩

def backspace : Char := '\x08'

/-- What one cluster does when it is typed. -/
def type (typed : Typed) (cluster : List Char) : Typed :=
  if cluster = [backspace] then typed.erase else typed.add cluster

/-- The text that is left when another text has been typed. -/
def result (text : String) : String :=
  String.ofList ((clusters text.toList).foldl type empty).text.reverse

theorem text_foldl_type {typed : Typed} {pieces : List (List Char)}
    (h : ∀ piece ∈ pieces, piece ≠ [backspace]) :
    (pieces.foldl type typed).text = pieces.flatten.reverse ++ typed.text := by
  induction pieces generalizing typed with
  | nil => simp
  | cons piece rest ih =>
      have hpiece : piece ≠ [backspace] := h piece List.mem_cons_self
      have hrest : ∀ other ∈ rest, other ≠ [backspace] :=
        fun other hother => h other (List.mem_cons_of_mem piece hother)
      simp [ih hrest, type, hpiece, add]

/-- Text without a backspace is left as it is. -/
theorem result_of_not_mem {text : String} (h : backspace ∉ text.toList) :
    result text = text := by
  have hpieces : ∀ piece ∈ clusters text.toList, piece ≠ [backspace] := by
    intro piece hpiece hback
    apply h
    rw [← flatten_clusters text.toList]
    exact List.mem_flatten.2
      ⟨piece, hpiece, hback ▸ List.mem_singleton_self backspace⟩
  simp [result, text_foldl_type hpieces, flatten_clusters, empty]

/-- A line without the carriage return that belongs to its line end. -/
def withoutReturn (text : List Char) : List Char :=
  if text.getLast? = some '\r' then text.dropLast else text

/-- The lines of a text, `current` being the line so far in reverse.  A line
feed, with or without a carriage return before it, ends a line. -/
def splitFrom (current : List Char) : List Char → List (List Char)
  | [] => if current.isEmpty then [] else [current.reverse]
  | '\n' :: rest => withoutReturn current.reverse :: splitFrom [] rest
  | c :: rest => splitFrom (c :: current) rest

/-- The lines of an input, as they are once they have been typed. -/
def lines (input : String) : List String :=
  (splitFrom [] input.toList).map fun line => result (String.ofList line)

end Typed

end Scriptlet
