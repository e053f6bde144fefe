/-
The prompt: lines of source text, read and run one after the other in one
session.
-/
import Scriptlet.Script

namespace Scriptlet

/-- The code points of white space, in ascending order. -/
def whiteSpace : List Nat :=
  [0x9, 0xA, 0xB, 0xC, 0xD, 0x20, 0x85, 0xA0, 0x1680, 0x2000, 0x2001, 0x2002,
    0x2003, 0x2004, 0x2005, 0x2006, 0x2007, 0x2008, 0x2009, 0x200A, 0x2028,
    0x2029, 0x202F, 0x205F, 0x3000]

/-- Whether a line holds nothing but white space. -/
def isBlankLine (line : String) : Bool :=
  line.toList.all fun c => whiteSpace.contains c.toNat

theorem whiteSpace_of_isWhitespace (c : Char) (h : c.isWhitespace) :
    c.toNat ∈ whiteSpace := by
  simp only [Char.isWhitespace, Bool.or_eq_true, decide_eq_true_eq,
    or_assoc] at h
  rcases h with rfl | rfl | rfl | rfl <;> decide

/-- What goes to the output and to the error output. -/
structure Reply where
  out : String
  err : String
deriving DecidableEq, Repr

/-- One reply after another. -/
def Reply.append (first second : Reply) : Reply :=
  ⟨first.out ++ second.out, first.err ++ second.err⟩

/-- Diagnostics as they are reported, each on a line of its own. -/
def diagnosticsReport (diagnostics : List Diagnostic) : String :=
  "parser errors:\n" ++
    String.join (diagnostics.map fun diagnostic =>
      "\t" ++ diagnostic.render ++ "\n")

/-- Whether a program ends with a binding. -/
def Program.endsWithBinding (program : Program) : Bool :=
  match program.getLast? with
  | some (.binding ..) => true
  | _ => false

namespace Prompt

/-- What is shown for the value of a line: a binding has nothing to show, unless
it failed. -/
def shown (program : Program) : Value → String
  | .fault fault => (Value.fault fault).inspect ++ "\n"
  | value => if program.endsWithBinding then "" else value.inspect ++ "\n"

/-- Runs one line.  A line that cannot be read as a whole is reported and not
run. -/
def line (session : Session) (text : String) : Reply × Session :=
  if isBlankLine text then (⟨"", ""⟩, session)
  else
    let parsed := Parsed.ofSource text
    if parsed.diagnostics.isEmpty then
      let (value, session) := session.program parsed.program
      let (output, session) := session.takeOutput
      (⟨output ++ shown parsed.program value, ""⟩, session)
    else
      (⟨"", diagnosticsReport parsed.diagnostics⟩, session)

/-- Runs lines one after the other. -/
def lines (session : Session) : List String → Reply
  | [] => ⟨"", ""⟩
  | first :: rest =>
      let (reply, session) := line session first
      reply.append (lines session rest)

end Prompt

end Scriptlet
