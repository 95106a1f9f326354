/-!
# Names of classes and methods

A recorded name becomes an identifier from its words, the maximal runs of ASCII letters and
digits: every word gets a capital first letter and the words are joined.
-/

namespace CestWriter.Identifier

/-- Letters and digits of the words, each word's first letter a capital. `start` says that the next
letter or digit begins a word. -/
def joinWords (start : Bool) : List Char → List Char
  | [] => []
  | c :: cs =>
    if c.isAlphanum then (if start then c.toUpper else c) :: joinWords false cs
    else joinWords true cs

/-- All words with a capital first letter: `check out` gives `CheckOut`. -/
def pascal (name : String) : String :=
  String.ofList (joinWords true name.toList)

/-- All words but the first with a capital first letter: `check out` gives `checkOut`. -/
def camel (name : String) : String :=
  match joinWords true name.toList with
  | [] => ""
  | c :: cs => String.ofList (c.toLower :: cs)

/-- Whether a text begins with an ASCII digit. -/
def startsWithDigit (s : String) : Bool :=
  match s.toList with
  | [] => false
  | c :: _ => c.isDigit

/-- The method name of a test: the camel-case name, with `test` standing in for an empty name and in
front of a name that begins with a digit. -/
def method (name : String) : String :=
  let base := camel name
  if base.isEmpty then "test"
  else if startsWithDigit base then "test" ++ base
  else base

/-- The class name for a suite or project: the capitalised name, with `Side` standing in for an
empty name and in front of a name that begins with a digit, and then the suffix. -/
def className (suffix name : String) : String :=
  let base := pascal name
  (if base.isEmpty || startsWithDigit base then "Side" ++ base else base) ++ suffix

end CestWriter.Identifier
