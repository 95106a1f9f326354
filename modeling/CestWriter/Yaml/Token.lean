import CestWriter.Yaml.BlockScalar
import CestWriter.Yaml.Tag

/-!
# Tokens

A document as a list of tokens. Indentation becomes tokens too: a block collection begins where its
first item or key stands further to the right than the collection around it, and ends before the
first token that stands further to the left. A key is known as such only at the colon after it, so
the token that marks it is put in front of it then.
-/

namespace CestWriter.Yaml

/-- A token of a document. -/
inductive Token where
  /-- A line about the document. -/
  | directive (d : Directive)
  | documentStart
  | documentEnd
  /-- The end of the text. -/
  | streamEnd
  | blockSequence
  | blockMapping
  | blockEnd
  | flowSequence
  | flowSequenceEnd
  | flowMapping
  | flowMappingEnd
  /-- A dash in front of an item. -/
  | item
  | comma
  /-- What follows is a key. -/
  | key
  /-- What follows is the value of the key before. -/
  | value
  /-- A name for the node that follows. -/
  | anchor (name : String)
  /-- The node that has this name. -/
  | alias (name : String)
  /-- A type for the node that follows. -/
  | tag (type : Tag)
  | scalar (s : Scalar)
deriving Repr, DecidableEq

/-- A place where a key may begin. -/
structure KeyStart where
  /-- The tokens before it, in reverse. -/
  before : List Token
  place : Cursor
  /-- Whether nothing but a key may stand there. -/
  required : Bool

namespace KeyStart

/-- How many bytes a key may take. -/
def limit : Nat := 1024

/-- How many bytes stand between the beginning of a key and a later place on its line. -/
def bytesTo (k : KeyStart) (p : Position) : Nat :=
  (k.place.rest.take (p.column - k.place.position.column)).foldr (fun c n => c.utf8Size + n) 0

/-- Whether a key may end at this position: it stands on one line and is not too long. -/
def mayEnd (k : KeyStart) (p : Position) : Bool :=
  k.place.position.line == p.line && k.bytesTo p ≤ limit

end KeyStart

/-- How far a document has been split into tokens. -/
structure Scanner where
  place : Cursor
  /-- The tokens since the place where a key may have begun, or all of them, in reverse. -/
  tokens : List Token := []
  /-- The columns of the open block collections, innermost first. -/
  indents : List Nat := []
  /-- Where a key may have begun in the innermost collection. -/
  key : Option KeyStart := none
  /-- The same for the collections around it, if it is one in brackets. -/
  outer : List (Option KeyStart) := []
  /-- Whether a key may begin here. -/
  keyAllowed : Bool := true
  /-- What handles stand for, as far as lines before the document say so. -/
  handles : List (String × Tag) := []

namespace Scanner

/-- The column of the current place. -/
def column (s : Scanner) : Nat :=
  s.place.position.column

/-- Whether the current place is inside brackets. -/
def inFlow (s : Scanner) : Bool :=
  !s.outer.isEmpty

/-- The least indentation of what belongs to the innermost block collection. -/
def inside (s : Scanner) : Nat :=
  match s.indents with
  | [] => 0
  | column :: _ => column + 1

/-- Skips blanks, comments and line ends. In a block, a tab cannot stand where a key may begin, and
a line end allows a key. A byte-order mark may stand at the beginning of a line, where it takes up a
column. -/
def skip (flow keyAllowed comment : Bool) (p : Position) : List Char → Bool × Cursor
  | [] => (keyAllowed, ⟨p, []⟩)
  | c :: cs =>
    if isBreak c then skip flow (keyAllowed || !flow) false p.newline cs
    else if comment then skip flow keyAllowed true (p.right 1) cs
    else if c = ' ' || (c = '\t' && (flow || !keyAllowed)) || (c = '\ufeff' && p.column = 0) then
      skip flow keyAllowed false (p.right 1) cs
    else if c = '#' then skip flow keyAllowed true (p.right 1) cs
    else (keyAllowed, ⟨p, c :: cs⟩)

/-- Goes to the next token. -/
def toToken (s : Scanner) : Scanner :=
  let (keyAllowed, place) := skip s.inFlow s.keyAllowed false s.place.position s.place.rest
  { s with place := place, keyAllowed := keyAllowed }

/-- Ends the innermost block collections up to the first that stays. -/
def closeBlocks (s : Scanner) (stays : Nat → Bool) : Scanner :=
  if s.inFlow then s
  else
    { s with
      tokens := (s.indents.takeWhile (!stays ·)).map (fun _ => Token.blockEnd) ++ s.tokens
      indents := s.indents.dropWhile (!stays ·) }

/-- Whether a block collection begins with an item or key at this column. -/
def opensBlock (s : Scanner) (column : Nat) : Bool :=
  !s.inFlow && s.indents.head?.all (· < column)

/-- Begins a block collection if an item or key at the current place is the first of one. -/
def openBlock (s : Scanner) (token : Token) : Scanner :=
  if s.opensBlock s.column then
    { s with tokens := token :: s.tokens, indents := s.column :: s.indents }
  else s

/-- Adds a token that takes `n` characters. -/
def emit (s : Scanner) (token : Token) (n : Nat) : Scanner :=
  { s with
    tokens := token :: s.tokens
    place := ⟨s.place.position.right n, s.place.rest.drop n⟩ }

/-- Gives up that a key has begun. -/
def dropKey (s : Scanner) : Except Fault Scanner :=
  match s.key with
  | none => .ok s
  | some k =>
    if k.required then .error .loneKey
    else .ok { s with key := none, tokens := s.tokens ++ k.before }

/-- Notes that a key may begin here, if one may. -/
def saveKey (s : Scanner) : Except Fault Scanner := do
  if s.keyAllowed then
    let s ← s.dropKey
    let required := !s.inFlow && s.indents.head? == some s.column
    return { s with key := some ⟨s.tokens, s.place, required⟩, tokens := [] }
  else return s

/-- Takes a mark of the document, or a line about it; all block collections end before it. -/
def documentMark (s : Scanner) (token : Token) (n : Nat) : Except Fault Scanner := do
  if s.inFlow then throw .misplaced
  let s ← (s.closeBlocks fun _ => false).dropKey
  return { s.emit token n with keyAllowed := false }

/-- Takes an opening bracket. -/
def openFlow (s : Scanner) (token : Token) : Except Fault Scanner := do
  let s ← s.saveKey
  return { s.emit token 1 with key := none, outer := s.key :: s.outer, keyAllowed := true }

/-- Takes a closing bracket. -/
def closeFlow (s : Scanner) (token : Token) : Except Fault Scanner := do
  let s ← s.dropKey
  match s.outer with
  | [] => throw .misplaced
  | key :: outer =>
    return { s.emit token 1 with key := key, outer := outer, keyAllowed := false }

/-- Takes a comma. -/
def comma (s : Scanner) : Except Fault Scanner := do
  let s ← s.dropKey
  return { s.emit .comma 1 with keyAllowed := true }

/-- Takes the dash of an item, or the mark of a key that is not known by its colon. -/
def blockMark (s : Scanner) (collection mark : Token) (keyAllowed : Bool) :
    Except Fault Scanner := do
  if !s.inFlow && !s.keyAllowed then throw .misplaced
  let s ← s.dropKey
  return { (s.openBlock collection).emit mark 1 with keyAllowed := keyAllowed }

/-- Puts the mark of a key in front of it, and begins a mapping if it is the first key of one. -/
def markKey (s : Scanner) (k : KeyStart) : Scanner :=
  if s.opensBlock k.place.position.column then
    { s with
      key := none
      tokens := s.tokens ++ .key :: .blockMapping :: k.before
      indents := k.place.position.column :: s.indents }
  else { s with key := none, tokens := s.tokens ++ .key :: k.before }

/-- Takes the colon before a value whose key is not on the same line. -/
def complexColon (s : Scanner) : Except Fault Scanner := do
  if !s.inFlow && !s.keyAllowed then throw .misplaced
  let s ← s.dropKey
  return { (s.openBlock .blockMapping).emit .value 1 with keyAllowed := !s.inFlow }

/-- Takes the colon before a value. -/
def colon (s : Scanner) : Except Fault Scanner :=
  match s.key with
  | none => s.complexColon
  | some k =>
    if k.mayEnd s.place.position then
      .ok { (s.markKey k).emit .value 1 with keyAllowed := false }
    else s.complexColon

/-- Adds a scalar that has been read. -/
def addScalar (s : Scanner) (style : Style) (r : Reading) : Scanner :=
  { s with
    tokens := .scalar ⟨style, String.ofList r.text⟩ :: s.tokens
    place := r.after }

/-- Takes a plain scalar. If it ends after a line end, a key may follow. -/
def plainScalar (s : Scanner) : Except Fault Scanner := do
  let s ← s.saveKey
  let r ← plain s.inFlow s.inside .none s.place.position s.place.rest
  return { s.addScalar .plain r with keyAllowed := r.crossed }

/-- Takes a quoted scalar, which `read` reads from the place after its opening quote. -/
def quotedScalar (s : Scanner) (read : Gap → Position → List Char → Except Fault Reading) :
    Except Fault Scanner := do
  let s ← s.saveKey
  let r ← read .none (s.place.position.right 1) (s.place.rest.drop 1)
  return { s.addScalar .quoted r with keyAllowed := false }

/-- Takes a block scalar. -/
def indentedScalar (s : Scanner) (folded : Bool) : Except Fault Scanner := do
  let s ← s.dropKey
  let r ← blockScalar folded s.inside s.place.position (s.place.rest.drop 1)
  return { s.addScalar (if folded then .quoted else .literal none) r with keyAllowed := true }

/-- Takes a name after its mark. -/
def name (s : Scanner) (token : String → Token) : Except Fault Scanner := do
  let s ← s.saveKey
  let run := (s.place.rest.drop 1).takeWhile isNameChar
  let rest := (s.place.rest.drop 1).dropWhile isNameChar
  if !run.isEmpty && (atBlank rest || rest.head?.any ("?:,]\x7d%@`".toList.contains ·)) then
    return { s.emit (token (String.ofList run)) (run.length + 1) with keyAllowed := false }
  else throw (.unreadable (String.ofList s.place.rest))

/-- Takes a type. -/
def tag (s : Scanner) : Except Fault Scanner := do
  let s ← s.saveKey
  let (type, rest) ← Tag.read s.handles (s.place.rest.drop 1)
  if atBlank rest || (s.inFlow && rest.head? == some ',') then
    return { s.emit (.tag type) (s.place.rest.length - rest.length) with keyAllowed := false }
  else throw (.unreadable (String.ofList s.place.rest))

/-- Notes what a line about the document says. A handle is explained only once. -/
def note (s : Scanner) : Directive → Except Fault Scanner
  | .version => .ok s
  | .handle name lead =>
    if (s.handles.lookup name).isSome then .error .misplaced
    else .ok { s with handles := (name, lead) :: s.handles }

/-- Takes a line about the document. -/
def directive (s : Scanner) : Except Fault Scanner := do
  match Directive.read? (s.place.rest.drop 1) with
  | some (d, rest) =>
    let rest := rest.dropWhile isBlank
    if atBlank rest || rest.head? == some '#' then
      let s ← s.note d
      s.documentMark (.directive d) (s.place.rest.length - rest.length)
    else throw (.unreadable (String.ofList rest))
  | none => throw (.unreadable (String.ofList s.place.rest))

/-- Takes the token that begins with `c`, where `cs` follows. -/
def take (s : Scanner) (c : Char) (cs : List Char) : Except Fault Scanner :=
  if s.column = 0 && c = '%' then s.directive
  else if s.column = 0 && atMark '-' (c :: cs) then s.documentMark .documentStart 3
  else if s.column = 0 && atMark '.' (c :: cs) then s.documentMark .documentEnd 3
  else if c = '[' then s.openFlow .flowSequence
  else if c = '\x7b' then s.openFlow .flowMapping
  else if c = ']' then s.closeFlow .flowSequenceEnd
  else if c = '\x7d' then s.closeFlow .flowMappingEnd
  else if c = ',' then s.comma
  else if c = '-' && atBlank cs then s.blockMark .blockSequence .item true
  else if c = '?' && (s.inFlow || atBlank cs) then s.blockMark .blockMapping .key !s.inFlow
  else if c = ':' && (s.inFlow || atBlank cs) then s.colon
  else if c = '*' then s.name .alias
  else if c = '&' then s.name .anchor
  else if c = '!' then s.tag
  else if c = '|' && !s.inFlow then s.indentedScalar false
  else if c = '>' && !s.inFlow then s.indentedScalar true
  else if c = '\'' then s.quotedScalar singleQuoted
  else if c = '"' then s.quotedScalar doubleQuoted
  else if beginsPlain s.inFlow (c :: cs) then s.plainScalar
  else .error (.unreadable (String.ofList (c :: cs)))

/-- The tokens of a document when its text has ended. -/
def finish (s : Scanner) : Except Fault (List Token) := do
  if s.inFlow then throw .misplaced
  let s ← (s.closeBlocks fun _ => false).dropKey
  return (Token.streamEnd :: s.tokens).reverse

/-- The tokens of a document after at most `limit` more steps. -/
def runUpTo : Nat → Scanner → Except Fault (List Token)
  | 0, s => .error (.unreadable (String.ofList s.place.rest))
  | limit + 1, s =>
    let t := s.toToken
    match t.place.rest with
    | [] => t.finish
    | c :: cs => do runUpTo limit (← (t.closeBlocks (· ≤ t.column)).take c cs)

end Scanner

/-- The tokens of a text. Every token takes a character, so there are no more of them than
characters. -/
def Token.scan (cs : List Char) : Except Fault (List Token) :=
  Scanner.runUpTo (cs.length + 1) { place := ⟨{}, cs⟩ }

end CestWriter.Yaml
