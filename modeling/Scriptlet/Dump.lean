/-
Dumps: every node of a tree or value by name, with its parts in parentheses,
brackets or, where they have names, braces.
-/
import Scriptlet.Diagnostic
import Scriptlet.Session
import Scriptlet.Tree.Printer

namespace Scriptlet

namespace Dump

def list (items : List String) : String := "[" ++ commaSeparated items ++ "]"

def wrapped (name contents : String) : String := name ++ "(" ++ contents ++ ")"

/-- A node with named parts. -/
def record (name : String) (parts : List (String × String)) : String :=
  name ++ " \x7b " ++ commaSeparated
    (parts.map fun (part, value) => part ++ ": " ++ value) ++ " \x7d"

def block (statements : List String) : String :=
  record "Block" [("statements", list statements)]

def names (names : List String) : String := list (names.map Escaped.text)

end Dump

def UnaryOp.dump : UnaryOp → String
  | not => "Not"
  | negate => "Negate"

def BinaryOp.dump : BinaryOp → String
  | add => "Add"
  | sub => "Sub"
  | mul => "Mul"
  | div => "Div"
  | mod => "Mod"
  | less => "Less"
  | greater => "Greater"
  | equal => "Equal"
  | notEqual => "NotEqual"

mutual

def Expr.dump : Expr → String
  | .identifier name => Dump.wrapped "Identifier" (Escaped.text name)
  | .integer value => Dump.wrapped "IntegerLiteral" (Integer.toText value)
  | .boolean value => Dump.wrapped "BooleanLiteral" (boolText value)
  | .string value => Dump.wrapped "StringLiteral" (Escaped.text value)
  | .array elements =>
      Dump.wrapped "ArrayLiteral" (Dump.list (dumpExprs elements))
  | .hash pairs => Dump.wrapped "HashLiteral" (Dump.list (dumpPairs pairs))
  | .unary op operand =>
      Dump.record "Prefix" [("operator", op.dump), ("operand", operand.dump)]
  | .binary op left right =>
      Dump.record "Infix" [("operator", op.dump), ("left", left.dump),
        ("right", right.dump)]
  | .conditional condition consequence none =>
      Dump.record "If" [("condition", condition.dump),
        ("consequence", Dump.block (dumpStatements consequence)),
        ("alternative", "None")]
  | .conditional condition consequence (some alternative) =>
      Dump.record "If" [("condition", condition.dump),
        ("consequence", Dump.block (dumpStatements consequence)),
        ("alternative",
          Dump.wrapped "Some" (Dump.block (dumpStatements alternative)))]
  | .function parameters body =>
      Dump.record "FunctionLiteral" [("parameters", Dump.names parameters),
        ("body", Dump.block (dumpStatements body))]
  | .call callee arguments =>
      Dump.record "Call" [("callee", callee.dump),
        ("arguments", Dump.list (dumpExprs arguments))]
  | .index collection position =>
      Dump.record "Index" [("collection", collection.dump),
        ("index", position.dump)]

def Statement.dump : Statement → String
  | .binding name value =>
      Dump.record "Let" [("name", Escaped.text name), ("value", value.dump)]
  | .returning value => Dump.record "Return" [("value", value.dump)]
  | .expression value => Dump.record "Expression" [("value", value.dump)]
  | .block body => Dump.wrapped "Block" (Dump.block (dumpStatements body))

def dumpStatements : List Statement → List String
  | [] => []
  | statement :: rest => statement.dump :: dumpStatements rest

def dumpExprs : List Expr → List String
  | [] => []
  | x :: xs => x.dump :: dumpExprs xs

def dumpPairs : List (Expr × Expr) → List String
  | [] => []
  | (key, value) :: rest =>
      ("(" ++ key.dump ++ ", " ++ value.dump ++ ")") :: dumpPairs rest

end

def Program.dump (program : Program) : String :=
  Dump.record "Program" [("statements", Dump.list (dumpStatements program))]

def TokenKind.dump : TokenKind → String
  | illegal => "Illegal"
  | eof => "Eof"
  | ident => "Ident"
  | int => "Int"
  | string => "String"
  | assign => "Assign"
  | plus => "Plus"
  | minus => "Minus"
  | bang => "Bang"
  | asterisk => "Asterisk"
  | slash => "Slash"
  | percent => "Percent"
  | lt => "Lt"
  | gt => "Gt"
  | eq => "Eq"
  | notEq => "NotEq"
  | comma => "Comma"
  | colon => "Colon"
  | semicolon => "Semicolon"
  | lparen => "LParen"
  | rparen => "RParen"
  | lbrace => "LBrace"
  | rbrace => "RBrace"
  | lbracket => "LBracket"
  | rbracket => "RBracket"
  | functionWord => "Function"
  | letWord => "Let"
  | trueWord => "True"
  | falseWord => "False"
  | ifWord => "If"
  | elseWord => "Else"
  | returnWord => "Return"

/-- The name of a problem's cause. -/
def Problem.label : Problem → String
  | expectedToken .. => "ExpectedToken"
  | noExpression _ => "NoPrefixParseFn"
  | invalidInteger _ => "InvalidInteger"
  | nestingTooDeep _ => "NestingTooDeep"
  | illegalToken _ => "IllegalToken"

def Problem.parts : Problem → List (String × String)
  | expectedToken expected found =>
      [("expected", expected.dump), ("found", found.dump)]
  | noExpression kind => [("kind", kind.dump)]
  | invalidInteger literal => [("literal", Escaped.text literal)]
  | nestingTooDeep limit => [("limit", toString limit)]
  | illegalToken message => [("message", Escaped.text message)]

def Diagnostic.dump (diagnostic : Diagnostic) : String :=
  Dump.record diagnostic.problem.label
    (diagnostic.problem.parts ++ [("line", toString diagnostic.line)])

/-- All diagnostics of a text. -/
def dumpDiagnostics (diagnostics : List Diagnostic) : String :=
  Dump.list (diagnostics.map Diagnostic.dump)

def TypeName.dump (type : TypeName) : String := Escaped.text type.text

def Fault.parts : Fault → List (String × String)
  | unbound name => [("name", Escaped.text name)]
  | unknownUnary op operand =>
      [("operator", op.dump), ("operand", operand.dump)]
  | unknownBinary left op right | typeMismatch left op right =>
      [("left", left.dump), ("operator", op.dump), ("right", right.dump)]
  | divisionByZero => []
  | integerOverflow operation => [("operation", Escaped.text operation.text)]
  | unhashable type | notIndexable type | notCallable type =>
      [("type_name", type.dump)]
  | argumentCount got want =>
      [("got", toString got), ("want", Escaped.text want.text)]
  | unsupportedArgument function type | notAnArray function type =>
      [("function", Escaped.text function.name), ("type_name", type.dump)]
  | stackOverflow limit => [("limit", toString limit)]

def Fault.dump (fault : Fault) : String :=
  if fault.parts.isEmpty then fault.label else
    Dump.record fault.label fault.parts

def HashKey.dump : HashKey → String
  | integer value => Dump.wrapped "Integer" (Integer.toText value)
  | boolean value => Dump.wrapped "Boolean" (boolText value)
  | string value => Dump.wrapped "String" (Escaped.text value)

/-- A function without the scope it belongs to. -/
def Closure.dump (closure : Closure) : String :=
  "Function \x7b parameters: " ++ Dump.names closure.parameters ++ ", body: "
    ++ Dump.block (dumpStatements closure.body) ++ ", .. \x7d"

mutual

def Value.dump : Value → String
  | .null => "Null"
  | .integer value => Dump.wrapped "Integer" (Integer.toText value)
  | .boolean value => Dump.wrapped "Boolean" (boolText value)
  | .string value => Dump.wrapped "String" (Escaped.text value)
  | .array elements => Dump.wrapped "Array" (Dump.list (dumpValues elements))
  | .hash entries =>
      Dump.wrapped "Hash"
        ("\x7b" ++ commaSeparated (dumpEntries entries) ++ "\x7d")
  | .function closure => Dump.wrapped "Function" closure.dump
  | .builtin builtin => Dump.wrapped "Builtin" (Escaped.text builtin.name)
  | .returning value => Dump.wrapped "ReturnValue" value.dump
  | .fault fault => Dump.wrapped "Error" fault.dump

def dumpValues : List Value → List String
  | [] => []
  | value :: rest => value.dump :: dumpValues rest

def dumpEntries : List (HashKey × Value) → List String
  | [] => []
  | (key, value) :: rest => (key.dump ++ ": " ++ value.dump) :: dumpEntries rest

end

namespace Session

/-- The scope worked in: its names and whether it lies inside another one. -/
def dumpScope (session : Session) : String :=
  Dump.record "Environment" [("names", Dump.names session.names),
    ("enclosed", boolText (session.store.isEnclosed session.scope))]

/-- How deep expressions nest between runs, and how deep they may. -/
def dumpLimit (session : Session) : String :=
  Dump.record "Evaluator"
    [("depth", "0"), ("max_depth", toString session.limit)]

end Session

end Scriptlet
