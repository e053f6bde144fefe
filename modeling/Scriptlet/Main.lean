/-
The executable.  Files and lines of input are read here; everything else is
decided elsewhere.
-/
import Scriptlet.Command

namespace Scriptlet

/-- Writes a report and gives its exit code. -/
def Report.write (report : Report) : IO UInt32 := do
  (← IO.getStdout).putStr report.out
  (← IO.getStderr).putStr report.err
  return report.code

/-- What is in a file, if it can be read. -/
def contentsOf (path : String) : IO (Option ByteArray) := do
  try
    return some (← IO.FS.readBinFile path)
  catch _ =>
    return none

/-- Reads and runs lines until the input ends. -/
partial def converse (session : Session) : IO UInt32 := do
  let input ← IO.getStdin
  let output ← IO.getStdout
  if ← input.isTty then
    output.putStr ">> "
    output.flush
  match Typed.lines (← input.getLine) with
  | [] => return 0
  | text :: _ =>
      let (reply, session) := Prompt.line session text
      output.putStr reply.out
      output.flush
      (← IO.getStderr).putStr reply.err
      converse session

end Scriptlet

open Scriptlet in
def main (arguments : List String) : IO UInt32 := do
  match Options.read arguments with
  | .error stop => (Command.stopped stop).write
  | .ok options =>
      let limit := options.limit.getD defaultLimit
      match options.file, options.code with
      | some path, _ => do
          (Command.file limit options.print path (← contentsOf path)).write
      | none, some code => (Command.script limit options.print code).write
      | none, none => converse (.start limit)
