/-
The command: runs a file, the code given with `-e`, or the lines of its input.
-/
import Scriptlet.Options
import Scriptlet.Prompt
import Scriptlet.Text.Typed

namespace Scriptlet

/-- What the command leaves behind. -/
structure Report where
  code : UInt32
  out : String
  err : String
deriving DecidableEq, Repr

namespace Path

/-- The last part of a path; a trailing slash and single dots do not count, and
two dots are no name. -/
def fileName? (path : String) : Option (List Char) :=
  let parts := path.toList.splitOn '/'
  match (parts.filter fun part => part ≠ [] ∧ part ≠ ['.']).getLast? with
  | some ['.', '.'] => none
  | name => name

/-- What stands behind the last dot of a name, unless the name starts there. -/
def extension? (path : String) : Option String :=
  match fileName? path with
  | none => none
  | some name =>
      let reversed := name.reverse
      match reversed.dropWhile (· != '.') with
      | _ :: _ :: _ =>
          some (String.ofList (reversed.takeWhile (· != '.')).reverse)
      | _ => none

end Path

namespace Command

def versionText : String := "yoru 0.1.0\n"

def usageText : String :=
  "Usage: yoru [OPTIONS] [FILE]\n\nArguments:\n"
    ++ "  [FILE]  A script to run. Must have the `.yoru` extension\n\n"
    ++ "Options:\n"
    ++ "  -e, --eval <CODE>    Runs the given code instead of a file\n"
    ++ "  -p, --print          Prints the value of the last statement after "
    ++ "running a script\n"
    ++ "      --max-depth <N>  How deeply expressions may nest before "
    ++ "evaluation fails with a stack overflow error [default: 512]\n"
    ++ "  -h, --help           Print help\n"
    ++ "  -V, --version        Print version\n"

/-- The report of a command line that asks for nothing to be run. -/
def stopped : Stop → Report
  | .usage => ⟨2, "", "error: unexpected arguments\n\n" ++ usageText⟩
  | .version => ⟨0, versionText, ""⟩
  | .help => ⟨0, usageText, ""⟩

def failed (message : String) : Report := ⟨1, "", message ++ "\n"⟩

/-- Scripts are files with the extension `yoru`. -/
def isScript (path : String) : Bool := Path.extension? path == some "yoru"

def refused (path : String) : Report :=
  failed
    ("Refusing to run '" ++ path ++
      "': yoru scripts must have the .yoru extension.")

def unreadable (path : String) : Report :=
  failed
    ("Failed to read the input file '" ++ path ++
      "'. Perhaps this file does not exist?")

/-- Runs a script. -/
def script (limit : Nat) (print : Bool) (source : String) : Report :=
  let result := Script.run limit source
  match result.value with
  | .ok value =>
      ⟨0, result.output ++ (if print then value.inspect ++ "\n" else ""), ""⟩
  | .error (.malformed diagnostics) =>
      ⟨1, result.output, diagnosticsReport diagnostics⟩
  | .error (.failed fault) =>
      ⟨1, result.output, (Value.fault fault).inspect ++ "\n"⟩

/-- Runs the script in a file; `contents` is what is in the file, if it can be
read at all. -/
def file (limit : Nat) (print : Bool) (path : String)
    (contents : Option ByteArray) : Report :=
  if isScript path then
    match contents.bind String.fromUTF8? with
    | some source => script limit print source
    | none => unreadable path
  else refused path

/-- Runs lines at the prompt. -/
def prompt (limit : Nat) (input : String) : Report :=
  let reply := Prompt.lines (.start limit) (Typed.lines input)
  ⟨0, reply.out, reply.err⟩

/-- The report of a command line, given the files there are and the input. -/
def report (contents : String → Option ByteArray) (input : String)
    (arguments : List String) : Report :=
  match Options.read arguments with
  | .error stop => stopped stop
  | .ok options =>
      let limit := options.limit.getD defaultLimit
      match options.file, options.code with
      | some path, _ => file limit options.print path (contents path)
      | none, some code => script limit options.print code
      | none, none => prompt limit input

end Command

end Scriptlet
