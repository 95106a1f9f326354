import CestWriter.Template.Segment
import CestWriter.Text.Cut
import CestWriter.Text.Shown

/-!
# Expressions in templates

What may stand inside a tag: a name, a quoted text, a field of a value, a filter applied to a
value, and negation. A name that is not bound stands for an undefined value, which is written as
nothing and counts as false.
-/

namespace CestWriter.Template

/-- A token of an expression. -/
inductive Token where
  | name (s : String)
  | text (s : String)
  | dot
  | bar
  | beginList
  | endList
  | comma
deriving Repr, DecidableEq

/-- Whether a name may begin with this character. -/
def beginsName (c : Char) : Bool :=
  c.isAlpha || c == '_'

/-- Whether a name may contain this character. -/
def continuesName (c : Char) : Bool :=
  c.isAlphanum || c == '_'

/-- The character of an escape in a quoted text. -/
def escaped? (c : Char) : Option Char :=
  if c = 'n' then some '\n'
  else if c = 't' then some '\t'
  else if c = 'r' then some '\r'
  else if c = 'b' then some '\x08'
  else if c = 'f' then some '\x0c'
  else if c = '"' || c = '\'' || c = '\\' || c = '/' then some c
  else none

/-- The rest of a quoted text after its opening quote, and what follows it. -/
def quoted? (quote : Char) : List Char → Option (List Char × List Char)
  | [] => none
  | c :: cs =>
    if c = quote then some ([], cs)
    else if c = '\\' then
      match cs with
      | [] => none
      | d :: more => do
        let e ← escaped? d
        let (run, rest) ← quoted? quote more
        return (e :: run, rest)
    else (quoted? quote cs).map fun (run, rest) => (c :: run, rest)

/-- The first token of a text that begins with one, and what follows it. -/
def Token.next? : List Char → Option (Token × List Char)
  | [] => none
  | c :: cs =>
    if c = '.' then some (.dot, cs)
    else if c = '|' then some (.bar, cs)
    else if c = '(' then some (.beginList, cs)
    else if c = ')' then some (.endList, cs)
    else if c = ',' then some (.comma, cs)
    else if c = '"' || c = '\'' then
      (quoted? c cs).map fun (run, rest) => (.text (String.ofList run), rest)
    else if beginsName c then
      some (.name (String.ofList (c :: cs.takeWhile continuesName)), cs.dropWhile continuesName)
    else none

/-- The tokens of a text, at most `limit` of them. -/
def Token.scanUpTo : Nat → List Char → Option (List Token)
  | 0, _ => none
  | limit + 1, cs =>
    match cs.dropWhile Text.isBlank with
    | [] => some []
    | c :: rest =>
      match Token.next? (c :: rest) with
      | none => none
      | some (token, after) => (Token.scanUpTo limit after).map (token :: ·)

/-- The tokens of a text. Every token takes a character, so there are no more of them than
characters. -/
def Token.scan? (cs : List Char) : Option (List Token) :=
  Token.scanUpTo (cs.length + 1) cs

/-- An argument of a filter. -/
inductive Argument where
  | name (s : String)
  | text (s : String)
deriving Repr, DecidableEq

/-- An expression. -/
inductive Expr where
  | name (s : String)
  | text (s : String)
  /-- A field of a value. -/
  | field (e : Expr) (name : String)
  /-- A filter applied to a value. -/
  | filter (e : Expr) (name : String) (arguments : List Argument)
  | negate (e : Expr)
deriving Repr, DecidableEq

/-- The argument that a token stands for. -/
def Argument.ofToken? : Token → Option Argument
  | .name s => some (.name s)
  | .text s => some (.text s)
  | _ => none

mutual

/-- Reads fields and filters that follow an expression, to the end of the tokens. -/
def Expr.after? (e : Expr) : List Token → Option Expr
  | [] => some e
  | .dot :: .name s :: rest => Expr.after? (.field e s) rest
  | .bar :: .name s :: .beginList :: rest => Expr.afterList? e s [] rest
  | .bar :: .name s :: rest => Expr.after? (.filter e s []) rest
  | _ => none

/-- Reads the arguments of a filter; those read before are in reverse. -/
def Expr.afterList? (e : Expr) (filter : String) (read : List Argument) :
    List Token → Option Expr
  | .endList :: rest =>
    if read.isEmpty then Expr.after? (.filter e filter []) rest else none
  | token :: .endList :: rest =>
    match Argument.ofToken? token with
    | some a => Expr.after? (.filter e filter (a :: read).reverse) rest
    | none => none
  | token :: .comma :: rest =>
    match Argument.ofToken? token with
    | some a => Expr.afterList? e filter (a :: read) rest
    | none => none
  | _ => none

end

/-- Reads an expression from all of the tokens. -/
def Expr.ofTokens? : List Token → Option Expr
  | .name s :: rest =>
    if s = "not" then (Expr.ofTokens? rest).map .negate else Expr.after? (.name s) rest
  | .text s :: rest => Expr.after? (.text s) rest
  | _ => none

/-- A value that a template works with. -/
inductive Value where
  | text (s : String)
  | truth (b : Bool)
  | list (items : List String)
  /-- The state of the innermost repetition. -/
  | repetition (first last : Bool)
  | undefined
deriving Repr, DecidableEq

namespace Value

/-- Whether a value counts as true: all but false, undefined and empty ones do. -/
def isTrue : Value → Bool
  | .text s => !s.isEmpty
  | .truth b => b
  | .list items => !items.isEmpty
  | .repetition _ _ => true
  | .undefined => false

/-- A value as it is written. -/
def write : Value → String
  | .text s => s
  | .truth true => "True"
  | .truth false => "False"
  | .list items => "[" ++ ", ".intercalate (items.map Text.shown) ++ "]"
  | .repetition _ _ => "<loop>"
  | .undefined => ""

/-- A field of a value. -/
def field (name : String) : Value → Except Fault Value
  | .undefined => .error .mistyped
  | .repetition first last =>
    .ok (if name = "first" then .truth first
      else if name = "last" then .truth last
      else .undefined)
  | _ => .ok .undefined

/-- Applies a filter. The only one is `indent`, which puts a text in front of every non-empty
line. -/
def filter (name : String) (arguments : List Value) (v : Value) : Except Fault Value :=
  if name = "indent" then
    match v, arguments with
    | .text s, [.text unit] => .ok (.text (Text.indent unit s))
    | _, _ => .error .mistyped
  else .error (.unknownFilter name)

end Value

/-- The values that names stand for. -/
abbrev Scope := List (String × Value)

/-- The value of a name. -/
def Scope.get (scope : Scope) (name : String) : Value :=
  (scope.lookup name).getD .undefined

/-- The value of an argument. -/
def Argument.eval (scope : Scope) : Argument → Value
  | .name s => scope.get s
  | .text s => .text s

/-- The value of an expression. -/
def Expr.eval (scope : Scope) : Expr → Except Fault Value
  | .name s => .ok (scope.get s)
  | .text s => .ok (.text s)
  | .field e s => do (← e.eval scope).field s
  | .filter e s arguments => do (← e.eval scope).filter s (arguments.map (·.eval scope))
  | .negate e => do return .truth !(← e.eval scope).isTrue

end CestWriter.Template
