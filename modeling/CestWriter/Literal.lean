import CestWriter.Decimal.Numeral
import CestWriter.Text.Cut
import CestWriter.Text.Reference

/-!
# Literals and small expressions of the generated code

String literals in double and in single quotes, variables, assignments and the lists of arguments
that calls take. In a double-quoted literal `$name` stays as it is, so the generated code reads the
variable.
-/

namespace CestWriter.Literal

/-- A character inside double quotes. -/
def escapeChar (c : Char) : List Char :=
  if c = '\\' || c = '"' then ['\\', c] else [c]

/-- A character inside single quotes. -/
def escapeSingleChar (c : Char) : List Char :=
  if c = '\\' || c = '\'' then ['\\', c] else [c]

/-- A character of a script inside double quotes. -/
def escapeScriptChar (c : Char) : List Char :=
  if c = '\\' || c = '"' || c = '`' then ['\\', c] else [c]

/-- A text escaped for double quotes. -/
def escape (s : String) : String :=
  String.ofList (s.toList.flatMap escapeChar)

/-- A text escaped for single quotes. -/
def escapeSingle (s : String) : String :=
  String.ofList (s.toList.flatMap escapeSingleChar)

/-- A script escaped for double quotes; backticks are escaped as well. -/
def escapeScript (s : String) : String :=
  String.ofList (s.toList.flatMap escapeScriptChar)

/-- A double-quoted literal. -/
def quote (s : String) : String :=
  "\"" ++ escape s ++ "\""

/-- A single-quoted literal. -/
def singleQuote (s : String) : String :=
  "'" ++ escapeSingle s ++ "'"

/-- Recorded text as a double-quoted literal that reads the variables it refers to. -/
def text (s : String) : String :=
  quote (Text.interpolate s)

/-- A variable. -/
def variableOf (name : String) : String :=
  "$" ++ name

/-- An assignment, or the bare statement when no variable is named. -/
def assign (name expr : String) : String :=
  if name.isEmpty then expr ++ ";" else variableOf name ++ " = " ++ expr ++ ";"

/-- Whether a text begins with the sign of a variable. -/
def startsWithVariable (s : String) : Bool :=
  Text.startsWith "$" s

/-- Whether a text is a number made of digits, points and minus signs. -/
def isNumber (s : String) : Bool :=
  (Numeral.parse? s.toList).isSome &&
    s.toList.all fun c => c.isDigit || c == '.' || c == '-'

/-- Whether a text is one of the constants that are written without quotes. -/
def isConstant (s : String) : Bool :=
  s == "true" || s == "false" || s == "null"

/-- A recorded value as an expression: a text that begins with a variable, a constant or a number
stands as it is, everything else is quoted. -/
def value (s : String) : String :=
  let t := Text.interpolate s
  if startsWithVariable t || isConstant t || isNumber t then t else quote t

/-- Call arguments separated by commas. -/
def arguments (args : List String) : String :=
  ", ".intercalate args

/-- Variables that follow a script in a call: nothing, or a comma and the variables. -/
def scriptArguments (names : List String) : String :=
  if names.isEmpty then "" else ", " ++ ",".intercalate (names.map variableOf)

end CestWriter.Literal
