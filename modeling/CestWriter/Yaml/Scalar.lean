import CestWriter.Text.Hex

/-!
# Plain and quoted scalars

Configuration documents are written in YAML. This module holds what separates the parts of a
document, and how plain, single-quoted and double-quoted scalars are read. A scalar may go on over
several lines: the blanks around a line end are dropped, a single line end becomes a space, and of
several line ends the first is dropped.
-/

namespace CestWriter.Yaml

/-- Why a document was refused. -/
inductive Fault where
  /-- A character that may not stand in a document. -/
  | control (c : Char)
  /-- A tab where indentation is expected. -/
  | tab
  /-- Something that cannot be read. -/
  | unreadable (rest : String)
  /-- A quoted scalar that does not end. -/
  | unclosed
  /-- A key that no colon follows. -/
  | loneKey
  /-- Something stands where it may not. -/
  | misplaced
  /-- A reference to a node that has no such name. -/
  | unknownAnchor (name : String)
  /-- A type that begins with a handle which stands for nothing. -/
  | unknownHandle (handle : String)
  /-- More than one document. -/
  | several
  /-- A field has the wrong type. -/
  | mistyped (field : String)
  /-- A field is given twice. -/
  | repeated (field : String)
deriving Repr, DecidableEq

/-- The wording of a fault. -/
def Fault.message : Fault → String
  | .control _ => "control characters are not allowed"
  | .tab => "found a tab in the indentation"
  | .unreadable rest => String.join ["cannot read `", rest, "`"]
  | .unclosed => "unexpected end of a quoted scalar"
  | .loneKey => "could not find a colon after a key"
  | .misplaced => "unexpected content"
  | .unknownAnchor name => String.join ["unknown anchor `", name, "`"]
  | .unknownHandle handle => String.join ["undefined tag handle `", handle, "`"]
  | .several => "more than one document"
  | .mistyped field => String.join ["invalid value for `", field, "`"]
  | .repeated field => String.join ["duplicate field `", field, "`"]

/-- The type of a node, in octets. -/
structure Tag where
  octets : List UInt8
deriving Repr, DecidableEq

/-- The type of this name. -/
def Tag.ofName (name : String) : Tag :=
  ⟨name.toUTF8.data.toList⟩

/-- How a scalar is written. -/
inductive Style where
  /-- Without quotes. -/
  | plain
  /-- In quotes, or on indented lines that are folded. -/
  | quoted
  /-- On indented lines that stay as they are; the type is kept, if there is one. -/
  | literal (tag : Option Tag)
deriving Repr, DecidableEq

/-- A scalar: how it is written, and its text. -/
structure Scalar where
  style : Style
  text : String
deriving Repr, DecidableEq

namespace Scalar

/-- The scalar of a value that is left out. -/
def empty : Scalar :=
  ⟨.plain, ""⟩

/-- A scalar that is given a type. -/
def withTag (tag : Tag) (s : Scalar) : Scalar :=
  match s.style with
  | .literal _ => { s with style := .literal (some tag) }
  | _ => s

/-- Whether a scalar may be a value of a type other than text: it is written without quotes, or on
lines that stay as they are and with this very type. -/
def mayBe (tag : Tag) (s : Scalar) : Bool :=
  match s.style with
  | .plain => true
  | .quoted => false
  | .literal given => given == some tag

end Scalar

/-- Whether a character separates tokens on a line. -/
def isBlank (c : Char) : Bool :=
  c == ' ' || c == '\t'

/-- Whether a character ends a line, after line ends are unified. -/
def isBreak (c : Char) : Bool :=
  c == '\n' || c == '\u2028' || c == '\u2029'

/-- A text in which carriage returns, alone or before a line feed, and next-line characters are line
feeds. Line and paragraph separators end lines too but stay what they are. -/
def unifyBreaks : List Char → List Char
  | [] => []
  | '\r' :: '\n' :: cs => '\n' :: unifyBreaks cs
  | c :: cs => (if c = '\r' || c = '\u0085' then '\n' else c) :: unifyBreaks cs

/-- Whether a text begins with a blank or a line end, or is at its end. -/
def atBlank : List Char → Bool
  | [] => true
  | c :: _ => isBlank c || isBreak c

/-- Whether a text begins with this mark three times, and with nothing that belongs to it. -/
def atMark (mark : Char) : List Char → Bool
  | a :: b :: c :: rest => a = mark && b = mark && c = mark && atBlank rest
  | _ => false

/-- Whether a text begins with a mark that begins or ends a document. -/
def atDocumentMark (cs : List Char) : Bool :=
  atMark '-' cs || atMark '.' cs

/-- Whether a character delimits collections in brackets. -/
def isFlowMark (c : Char) : Bool :=
  c == ',' || c == '[' || c == ']' || c == '\x7b' || c == '\x7d'

/-- A position in a document. -/
structure Position where
  line : Nat := 0
  column : Nat := 0
deriving Repr, DecidableEq

namespace Position

/-- The position after `n` characters of the same line. -/
def right (p : Position) (n : Nat) : Position :=
  ⟨p.line, p.column + n⟩

/-- The position at the beginning of the next line. -/
def newline (p : Position) : Position :=
  ⟨p.line + 1, 0⟩

end Position

/-- A place in a document: its position, and what is left. -/
structure Cursor where
  position : Position
  rest : List Char
deriving Repr, DecidableEq

/-- A scalar that has been read. -/
structure Reading where
  text : List Char
  /-- Whether a line end stands between the scalar and the place after it. -/
  crossed : Bool
  /-- The place after the scalar. -/
  after : Cursor
deriving Repr, DecidableEq

/-- A scalar with more text in front. -/
def Reading.prepend (cs : List Char) (r : Reading) : Reading :=
  { r with text := cs ++ r.text }

/-- What stands between two parts of a scalar. -/
inductive Gap where
  /-- Blanks on one line, in reverse. -/
  | blanks (run : List Char)
  /-- Line ends: the first one, unless it is escaped, and those after it in reverse. -/
  | breaks (first : Option Char) (more : List Char)
deriving Repr, DecidableEq

namespace Gap

/-- Nothing between two characters. -/
def none : Gap :=
  .blanks []

/-- Whether a gap contains a line end. -/
def crossed : Gap → Bool
  | .blanks _ => false
  | .breaks _ _ => true

/-- A gap with a blank at its end. After a line end, blanks are indentation. -/
def addBlank (c : Char) : Gap → Gap
  | .blanks run => .blanks (c :: run)
  | .breaks first more => .breaks first more

/-- A gap with a line end at its end. Blanks before a line end do not count. -/
def addBreak (c : Char) : Gap → Gap
  | .blanks _ => .breaks (some c) []
  | .breaks first more => .breaks first (c :: more)

/-- What a gap is in the text of a scalar. -/
def text : Gap → List Char
  | .blanks run => run.reverse
  | .breaks Option.none more => more.reverse
  | .breaks (some c) more =>
    if c = '\n' then if more.isEmpty then [' '] else more.reverse else c :: more.reverse

end Gap

/-- Whether a plain scalar may begin here. In a collection in brackets, `flow`, fewer characters may
begin one. -/
def beginsPlain (flow : Bool) : List Char → Bool
  | [] => false
  | c :: cs =>
    if c = '-' then !atBlank cs
    else if c = '?' || c = ':' then !flow && !atBlank cs
    else !(isBlank c || isBreak c || isFlowMark c || "#&*!|>'\"%@`".toList.contains c)

/-- Whether a plain scalar ends before a character that is neither blank nor a line end. After a gap
it ends before a comment, before a mark of the document and before a line that is not indented as
far as `indent`; anywhere it ends before a colon that a blank follows, and in brackets before a mark
of the collection. -/
def endsPlain (flow : Bool) (indent : Nat) (gap : Gap) (p : Position) (c : Char)
    (cs : List Char) : Bool :=
  (gap != .none && ((!flow && p.column < indent) || (p.column == 0 && atDocumentMark (c :: cs)) ||
      c == '#')) ||
    (c == ':' && atBlank cs) || (flow && isFlowMark c)

/-- Whether a colon in a collection in brackets stands directly before a mark. -/
def clashes (c : Char) (cs : List Char) : Bool :=
  c == ':' && cs.head?.any fun d => isFlowMark d || d == '?'

/-- The rest of a plain scalar, from a place after a gap. The gap belongs to the scalar only if the
scalar goes on after it. -/
def plain (flow : Bool) (indent : Nat) (gap : Gap) (p : Position) :
    List Char → Except Fault Reading
  | [] => .ok ⟨[], gap.crossed, ⟨p, []⟩⟩
  | c :: cs =>
    if isBreak c then plain flow indent (gap.addBreak c) p.newline cs
    else if isBlank c then
      if gap.crossed && c == '\t' && p.column < indent then .error .tab
      else plain flow indent (gap.addBlank c) (p.right 1) cs
    else if endsPlain flow indent gap p c cs then
      .ok ⟨[], gap.crossed, ⟨p, c :: cs⟩⟩
    else if flow && clashes c cs then .error (.unreadable (String.ofList (c :: cs)))
    else (plain flow indent .none (p.right 1) cs).map (·.prepend (gap.text ++ [c]))

/-- The rest of a single-quoted scalar, from a place after a gap. A quote is written twice. -/
def singleQuoted (gap : Gap) (p : Position) : List Char → Except Fault Reading
  | [] => .error .unclosed
  | c :: cs =>
    if isBreak c then singleQuoted (gap.addBreak c) p.newline cs
    else if isBlank c then singleQuoted (gap.addBlank c) (p.right 1) cs
    else if p.column = 0 && atDocumentMark (c :: cs) then .error .misplaced
    else if c = '\'' then
      match cs with
      | '\'' :: more => (singleQuoted .none (p.right 2) more).map (·.prepend (gap.text ++ [c]))
      | _ => .ok ⟨gap.text, false, ⟨p.right 1, cs⟩⟩
    else (singleQuoted .none (p.right 1) cs).map (·.prepend (gap.text ++ [c]))

/-- The character with the code point that hexadecimal digits give, unless there is none. -/
def codePoint? (digits : List Char) : Option Char := do
  let n ← Text.hexValue? digits
  if n < 0xD800 || (0xDFFF < n && n < 0x110000) then some (Char.ofNat n) else none

/-- The character of an escape that is a single letter or mark. -/
def escaped? (c : Char) : Option Char :=
  if c = '0' then some '\x00'
  else if c = 'a' then some '\x07'
  else if c = 'b' then some '\x08'
  else if c = 't' || c = '\t' then some '\t'
  else if c = 'n' then some '\n'
  else if c = 'v' then some '\x0b'
  else if c = 'f' then some '\x0c'
  else if c = 'r' then some '\r'
  else if c = 'e' then some '\x1b'
  else if c = ' ' || c = '"' || c = '/' || c = '\\' then some c
  else if c = 'N' then some '\u0085'
  else if c = '_' then some '\u00a0'
  else if c = 'L' then some '\u2028'
  else if c = 'P' then some '\u2029'
  else none

/-- Puts the character of an escape in front of what follows it. -/
def unescape (gap : Gap) (escape : Option Char) (rest : Except Fault Reading) :
    Except Fault Reading :=
  match escape with
  | some c => rest.map (·.prepend (gap.text ++ [c]))
  | none => .error (.unreadable "\\")

/-- The rest of a double-quoted scalar, from a place after a gap. A line end that is escaped leaves
no trace. -/
def doubleQuoted (gap : Gap) (p : Position) : List Char → Except Fault Reading
  | [] => .error .unclosed
  | '"' :: cs => .ok ⟨gap.text, false, ⟨p.right 1, cs⟩⟩
  | '\\' :: 'x' :: a :: b :: cs =>
    unescape gap (codePoint? [a, b]) (doubleQuoted .none (p.right 4) cs)
  | '\\' :: 'u' :: a :: b :: c :: d :: cs =>
    unescape gap (codePoint? [a, b, c, d]) (doubleQuoted .none (p.right 6) cs)
  | '\\' :: 'U' :: a :: b :: c :: d :: e :: f :: g :: h :: cs =>
    unescape gap (codePoint? [a, b, c, d, e, f, g, h]) (doubleQuoted .none (p.right 10) cs)
  | '\\' :: c :: cs =>
    if isBreak c then (doubleQuoted (.breaks none []) p.newline cs).map (·.prepend gap.text)
    else unescape gap (escaped? c) (doubleQuoted .none (p.right 2) cs)
  | c :: cs =>
    if isBreak c then doubleQuoted (gap.addBreak c) p.newline cs
    else if isBlank c then doubleQuoted (gap.addBlank c) (p.right 1) cs
    else if p.column = 0 && atDocumentMark (c :: cs) then .error .misplaced
    else if c = '\\' then .error .unclosed
    else (doubleQuoted .none (p.right 1) cs).map (·.prepend (gap.text ++ [c]))

end CestWriter.Yaml
