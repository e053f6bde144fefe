/-
Command line options.  Arguments are read from left to right; each sets
something, once only, and some end the reading at once.  Which options there are
is the command's own; how arguments are read stands for the behaviour of a
library, and only the command uses it.
-/
import Scriptlet.Eval.Basic

namespace Scriptlet

/-- What the command line asks for. -/
structure Options where
  file : Option String
  code : Option String
  print : Bool
  limit : Option Nat
deriving DecidableEq, Repr

/-- What ends the reading of a command line. -/
inductive Stop where
  | usage
  | version
  | help
deriving DecidableEq, Repr

/-- Options that need a value. -/
inductive Valued where
  | code
  | limit
deriving DecidableEq, Repr

/-- What one argument says. -/
inductive Setting where
  | print
  | version
  | help
  | file (path : String)
  | value (option : Valued) (text : String)
  /-- An option whose value is the next argument. -/
  | pending (option : Valued)
  | unknown
deriving DecidableEq, Repr

namespace Options

def none : Options := ⟨.none, .none, false, .none⟩

/-- An unsigned integer of 64 bits, with or without a plus sign. -/
def limitOfText? (text : String) : Option Nat :=
  let digits :=
    match text.toList with
    | '+' :: digits => digits
    | digits => digits
  (Integer.magnitude? digits).filter (· < UInt64.size)

/-- Sets an option to a value. -/
def setValue (options : Options) (option : Valued) (text : String) :
    Except Stop Options :=
  match option with
  | .code =>
      if options.code.isSome then .error .usage
      else .ok { options with code := some text }
  | .limit =>
      match limitOfText? text with
      | some limit =>
          if options.limit.isSome then .error .usage
          else .ok { options with limit := some limit }
      | .none => .error .usage

/-- Does what a setting says; `pending` and `unknown` settings cannot be
done. -/
def set (options : Options) : Setting → Except Stop Options
  | .print =>
      if options.print then .error .usage else
        .ok { options with print := true }
  | .version => .error .version
  | .help => .error .help
  | .file path =>
      if options.file.isSome || path.isEmpty then .error .usage
      else .ok { options with file := some path }
  | .value option text => options.setValue option text
  | .pending _ | .unknown => .error .usage

end Options

namespace Setting

/-- The settings of the letters behind a single dash. -/
def ofLetters : List Char → List Setting
  | [] => []
  | 'p' :: rest => print :: ofLetters rest
  | 'V' :: rest => version :: ofLetters rest
  | 'h' :: rest => help :: ofLetters rest
  | ['e'] => [pending .code]
  | 'e' :: '=' :: text => [value .code (String.ofList text)]
  | 'e' :: text => [value .code (String.ofList text)]
  | _ => [unknown]

/-- The setting of a word behind two dashes, with the value behind an equals
sign if there is one. -/
def ofWord (word : String) (text : Option String) : Setting :=
  match word, text with
  | "print", .none => print
  | "version", .none => version
  | "help", .none => help
  | "eval", .none => pending .code
  | "eval", some text => value .code text
  | "max-depth", .none => pending .limit
  | "max-depth", some text => value .limit text
  | _, _ => unknown

/-- Whether an argument is an option rather than a value; a lone dash is a
value. -/
def isOption (argument : String) : Bool :=
  match argument.toList with
  | '-' :: _ :: _ => true
  | _ => false

/-- The settings that an argument makes. -/
def ofArgument (argument : String) : List Setting :=
  match argument.toList with
  | '-' :: '-' :: word =>
      let name := String.ofList (word.takeWhile (· != '='))
      match word.dropWhile (· != '=') with
      | [] => [ofWord name .none]
      | _ :: text => [ofWord name (some (String.ofList text))]
  | '-' :: c :: letters => ofLetters (c :: letters)
  | _ => [file argument]

end Setting

namespace Options

/-- Does what the settings say, up to one whose value is still to come. -/
def setAll (options : Options) :
    List Setting → Except Stop (Options × Option Valued)
  | [] => .ok (options, .none)
  | [.pending option] => .ok (options, some option)
  | setting :: rest => do setAll (← options.set setting) rest

/-- A file and code cannot both be run. -/
def checked (options : Options) : Except Stop Options :=
  if options.file.isSome && options.code.isSome then .error .usage
    else .ok options

/-- Reads arguments.  Everything behind two dashes is a file. -/
def readFrom (options : Options) : List String → Except Stop Options
  | [] => options.checked
  | "--" :: files => do
      (← files.foldlM (fun options path => options.set (.file path))
        options).checked
  | argument :: rest => do
      match ← options.setAll (Setting.ofArgument argument), rest with
      | (options, .none), rest => readFrom options rest
      | (options, some option), text :: rest =>
          if Setting.isOption text then .error .usage
          else do readFrom (← options.setValue option text) rest
      | (_, some _), [] => .error .usage

/-- Reads the arguments of a command line. -/
def read (arguments : List String) : Except Stop Options :=
  none.readFrom arguments

end Options

end Scriptlet
