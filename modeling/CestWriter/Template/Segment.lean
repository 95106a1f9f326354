import CestWriter.Text.Blank

/-!
# Segments of a template

A template is literal text with tags in it: `{{ … }}` puts a value in, `{% … %}` controls what is
written, and `{# … #}` is a comment. A control tag or comment that stands on a line of its own
leaves no trace: the blanks before it and the line end after it are dropped.
-/

namespace CestWriter.Template

/-- Why a template was refused or could not be filled in. -/
inductive Fault where
  /-- A tag is not closed. -/
  | unclosed
  /-- A tag cannot be read. -/
  | unreadable (tag : String)
  /-- A tag closes nothing, or something is left open. -/
  | unbalanced
  | unknownFilter (name : String)
  /-- A value has the wrong type for what is done with it. -/
  | mistyped
  /-- Any other cause, in the words of an engine. -/
  | other (reason : String)
deriving Repr, DecidableEq

/-- The wording of a fault. -/
def Fault.message : Fault → String
  | .unclosed => "unexpected end of template"
  | .unreadable tag => String.join ["cannot read tag `", tag, "`"]
  | .unbalanced => "unbalanced block"
  | .unknownFilter name => String.join ["unknown filter `", name, "`"]
  | .mistyped => "invalid operation"
  | .other reason => reason

/-- The kinds of tags. -/
inductive Tag where
  | output
  | control
  | comment
deriving Repr, DecidableEq

/-- The kind of tag that this character begins, after an opening brace. -/
def Tag.ofOpening? (c : Char) : Option Tag :=
  if c = '\x7b' then some .output
  else if c = '%' then some .control
  else if c = '#' then some .comment
  else none

/-- The character that ends a tag, before a closing brace. -/
def Tag.closing : Tag → Char
  | .output => '\x7d'
  | .control => '%'
  | .comment => '#'

/-- A part of a template. -/
inductive Segment where
  | text (chars : List Char)
  | tag (kind : Tag) (body : List Char)
deriving Repr, DecidableEq

/-- Where in a template the reading stands. What has been read of the current part is in
reverse. -/
inductive Mode where
  | text (read : List Char)
  /-- Inside a tag; `quote` is the quote of a string that is open there. -/
  | tag (kind : Tag) (quote : Option Char) (read : List Char)

/-- The quote of the string that is open after a character of a tag. -/
def quoteAfter (kind : Tag) (quote : Option Char) (c : Char) : Option Char :=
  match quote with
  | some q => if c = q then none else some q
  | none => if kind ≠ .comment && (c = '"' || c = '\'') then some c else none

/-- The segments of a template. Text segments and tags alternate. -/
def scan : Mode → List Char → Except Fault (List Segment)
  | .text read, [] => .ok [.text read.reverse]
  | .text read, [c] => .ok [.text (c :: read).reverse]
  | .text read, c :: d :: cs =>
    match (if c = '\x7b' then Tag.ofOpening? d else none) with
    | some kind => (scan (.tag kind none []) cs).map (.text read.reverse :: ·)
    | none => scan (.text (c :: read)) (d :: cs)
  | .tag _ _ _, [] => .error .unclosed
  | .tag _ _ _, [_] => .error .unclosed
  | .tag kind quote read, c :: d :: cs =>
    if quote = none && c = kind.closing && d = '\x7d' then
      (scan (.text []) cs).map (.tag kind read.reverse :: ·)
    else if quote ≠ none && c = '\\' then scan (.tag kind quote (d :: c :: read)) cs
    else scan (.tag kind (quoteAfter kind quote c) (c :: read)) (d :: cs)

/-- Whether a character ends a line. -/
def isLineEnd (c : Char) : Bool :=
  c == '\n' || c == '\r'

/-- A text without one line end at its beginning. -/
def dropLineEnd : List Char → List Char
  | '\r' :: '\n' :: cs => cs
  | '\r' :: cs => cs
  | '\n' :: cs => cs
  | cs => cs

/-- Whether the current line is blank up to the end of a text; `blank` says so of the part of the
line before the text. -/
def blankAfter (blank : Bool) : List Char → Bool
  | [] => blank
  | c :: cs => blankAfter (isLineEnd c || (blank && Text.isBlank c)) cs

/-- A text without the blanks at its end, where they are all there is or follow a line feed. After
a carriage return alone they stay. -/
def dropLineBlanks (cs : List Char) : List Char :=
  let kept := (cs.reverse.dropWhile fun c => Text.isBlank c && !isLineEnd c).reverse
  if kept.isEmpty || kept.getLast? == some '\n' then kept else cs

/-- Whether a control tag or a comment comes next. -/
def beforeSilent : List Segment → Bool
  | .tag kind _ :: _ => kind ≠ .output
  | _ => false

/-- Drops what surrounds control tags and comments that stand on lines of their own. `trim` is set
directly after such a tag, and `blank` when the current line is blank so far. -/
def tidy (trim blank : Bool) : List Segment → List Segment
  | [] => []
  | .tag kind body :: rest => .tag kind body :: tidy (kind ≠ .output) false rest
  | .text cs :: rest =>
    let body := if trim then dropLineEnd cs else cs
    let blank := blankAfter (blank || body.length < cs.length) body
    .text (if blank && beforeSilent rest then dropLineBlanks body else body) ::
      tidy false blank rest

/-- A template source without the line end at its end. -/
def dropFinalLineEnd (cs : List Char) : List Char :=
  match cs.reverse with
  | '\n' :: '\r' :: rest => rest.reverse
  | '\n' :: rest => rest.reverse
  | '\r' :: rest => rest.reverse
  | _ => cs

/-- The segments of a template source, tidied. -/
def segments (source : List Char) : Except Fault (List Segment) :=
  (scan (.text []) (dropFinalLineEnd source)).map (tidy false true)

end CestWriter.Template
